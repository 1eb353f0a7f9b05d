import Mathlib
import DeclScan.Proofs.DeclaratorList

/-!
# Commas in initializers

An initializer ends at the first comma, also where that comma separates the
arguments of a template.  Whether a further name is declared then depends on
what follows: `Chain.anchors_initializer_iff`.
-/

set_option autoImplicit false

namespace DeclScan

variable {file : SourceFile} {entry : ScopeKind}

def StartsNext (file : SourceFile) (entry : ScopeKind) (ahead : List Token) : Prop :=
  ∃ (lead : List Token) (qualifiers : List Qualifier) (held : List Token) (notable : Token)
    (after : List Token) (name : Token),
    ahead = lead ++ qualifiers.flatMap Qualifier.tokens ++ held ++ notable :: after ∧
    Pieces TokenKind.isPassable (lead ++ qualifiers.flatMap Qualifier.tokens ++ held) ∧
    (∀ last ∈ lead.getLast?, last.kind ≠ .punct .doubleColon) ∧
    (∀ qualifier ∈ qualifiers, qualifier.IsPair) ∧
    Ending file entry held notable after name

theorem exists_find?_iff_startsNext {comma : Token} {passed ahead : List Token}
    (isComma : comma.kind = .punct .comma) :
    (∃ declarator, Declarator.find? file entry (comma :: passed) ahead = some declarator) ↔
      StartsNext file entry ahead := by
  have start := startsDeclarator_cons passed isComma
  constructor
  · rintro ⟨declarator, found⟩
    obtain ⟨lead, whole, isLead⟩ := Declarator.exists_lead_of_find? start found
    obtain ⟨front, held, notable, after, split, pieces, ending, isHolder, _, qualified⟩ :=
      (Declarator.find?_iff_ending start).1 found
    obtain ⟨_, pairs, noColons⟩ := qualification?_eq_some_iff.1 qualified
    obtain rfl : front =
        lead ++ declarator.qualification.qualifiers.reverse.flatMap Qualifier.tokens := by
      rw [whole, isHolder, List.append_assoc front] at split
      exact (List.append_cancel_right split).symm
    refine ⟨lead, _, held, notable, after, declarator.name, split, pieces, ?_, ?_, ending⟩
    · intro last isLast
      rcases List.eq_nil_or_concat lead with rfl | ⟨inner, last', rfl⟩
      · cases isLast
      · obtain rfl : last' = last := by simpa using isLast
        obtain ⟨rfl, _⟩ : declarator.qualification.typeEnd = last' ∧ _ := by simpa using isLead
        exact noColons
    · intro qualifier member
      exact pairs qualifier (List.mem_reverse.1 member)
  · rintro ⟨lead, qualifiers, held, notable, after, name, rfl, pieces, ends, pairs, ending⟩
    obtain ⟨nearest, before, preceding, noColons⟩ := exists_nearest ends passed isComma
    obtain ⟨declarator, found, _⟩ :=
      Declarator.exists_find?_of_ending start pieces ending pairs preceding noColons
    exact ⟨declarator, found⟩

namespace Declaration

theorem readFrom_known_declares_iff {typeEnd : Token} {passed ahead : List Token} :
    (readFrom file entry (some typeEnd) passed ahead).declared ≠ [] ↔
      ∃ declarator, Declarator.find? file entry passed ahead = some declarator := by
  rw [readFrom_eq]
  cases found : Declarator.find? file entry passed ahead with
  | none => simp
  | some declarator =>
    have ended : typeEnd? (some typeEnd) declarator = some typeEnd := rfl
    simp only [ended]
    cases nextDeclarator? declarator.settled declarator.ahead <;> simp

variable {type front rest : List Token} {name assign stop : Token}

/-- A name with an initializer is found, whatever ends the initializer. -/
theorem exists_declarator_of_initializer (file : SourceFile) (entry : ScopeKind)
    (isType : IsType type) (isName : name.kind = .identifier)
    (isAssign : assign.kind = .punct .assign) (unstopped : Unstopped front)
    (isStop : stop.kind.IsStop) (rest : List Token) :
    ∃ declarator typeEnd tail,
      Declarator.find? file entry [] (type ++ name :: assign :: (front ++ stop :: rest)) =
        some declarator ∧
      declarator.name = name ∧ typeEnd? none declarator = some typeEnd ∧
      Unstopped tail ∧ declarator.ahead = tail ++ stop :: rest := by
  have shape : DeclaratorShape file entry [] (name :: assign :: front) name :=
    .trailed nofun isName (.inr (.inl isAssign)) unstopped
  exact exists_first_of_shape isType shape isStop rest

theorem names_of_initializer_end (file : SourceFile) (entry : ScopeKind)
    (isType : IsType type) (isName : name.kind = .identifier)
    (isAssign : assign.kind = .punct .assign) (unstopped : Unstopped front)
    (isEnd : stop.kind = .punct .semicolon ∨ stop.kind = .opening .curly) (rest : List Token) :
    (read file entry (type ++ name :: assign :: (front ++ stop :: rest))).declared.map
      Variable.name = [name] := by
  obtain ⟨declarator, typeEnd, tail, found, rfl, ended, unstoppedTail, ahead⟩ :=
    exists_declarator_of_initializer file entry isType isName isAssign unstopped (.inr isEnd) rest
  have noNext : nextDeclarator? declarator.settled declarator.ahead = none := by
    rw [ahead, nextDeclarator?_append unstoppedTail, nextDeclarator?_of_end isEnd]
  rw [read_of_starts (isType.starts_append _), readFrom_eq]
  simp only [found, ended, noNext]
  rfl

/-- Behind an initializer that a comma ends, further names are declared if a
declarator stands there. -/
theorem names_of_initializer_comma (file : SourceFile) (entry : ScopeKind)
    (isType : IsType type) (isName : name.kind = .identifier)
    (isAssign : assign.kind = .punct .assign) (unstopped : Unstopped front)
    (isComma : stop.kind = .punct .comma) (rest : List Token) :
    ∃ others,
      (read file entry (type ++ name :: assign :: (front ++ stop :: rest))).declared.map
          Variable.name = name :: others ∧
        (others ≠ [] ↔ StartsNext file entry rest) := by
  obtain ⟨declarator, typeEnd, tail, found, rfl, ended, unstoppedTail, ahead⟩ :=
    exists_declarator_of_initializer file entry isType isName isAssign unstopped (.inl isComma) rest
  have next : nextDeclarator? declarator.settled declarator.ahead =
      some (stop :: (tail.reverse ++ declarator.settled), rest) :=
    nextDeclarator?_eq_some_iff.2 ⟨tail, stop, unstoppedTail, isComma, ahead, rfl⟩
  rw [read_of_starts (isType.starts_append _), readFrom_eq]
  simp only [found, ended, next, List.map_cons]
  refine ⟨_, rfl, ?_⟩
  rw [ne_eq, List.map_eq_nil_iff, ← ne_eq, readFrom_known_declares_iff]
  exact exists_find?_iff_startsNext isComma

end Declaration

namespace Chain

/-- A name with an initializer is offered first.  It is the only one if and only
if no declarator stands behind the first comma of the initializer, be that comma
in an angle run or not. -/
theorem anchors_initializer_iff {σ : Type} (sink : Sink σ) (file : SourceFile)
    (storage : Storage) (chain : Chain) (scopes : ScopeStack) (state : σ)
    {type init rest : List Token} {name assign stop : Token} (isType : IsType type)
    (isName : name.kind = .identifier) (isAssign : assign.kind = .punct .assign)
    (noEnd : ∀ token ∈ init, token.kind ≠ .punct .semicolon ∧ token.kind ≠ .opening .curly)
    (isEnd : stop.kind = .punct .semicolon ∨ stop.kind = .opening .curly)
    (live : chain.live = type ++ name :: assign :: (init ++ stop :: rest)) :
    let anchors := (chain.offers sink file storage scopes state).map Offer.anchor
    anchors.head? = some name ∧
      (anchors = [name] ↔
        ∀ front comma behind, init = front ++ comma :: behind → comma.kind = .punct .comma →
          (∀ token ∈ front, token.kind ≠ .punct .comma) →
            ¬ StartsNext file scopes.currentKind (behind ++ stop :: rest)) := by
  rw [anchors_offers, live]
  -- a part of the initializer without commas holds nothing that ends a declarator
  have unstopped {front : List Token} (within : front ⊆ init)
      (noComma : ∀ token ∈ front, token.kind ≠ .punct .comma) : Unstopped front := by
    rintro token member (isComma | isStop)
    · exact noComma token member isComma
    · obtain ⟨noSemicolon, noCurly⟩ := noEnd token (within member)
      exact isStop.elim noSemicolon noCurly
  have divided {front behind : List Token} {comma : Token}
      (split : init = front ++ comma :: behind) (isComma : comma.kind = .punct .comma)
      (noComma : ∀ token ∈ front, token.kind ≠ .punct .comma) :
      ∃ others,
        (Declaration.read file scopes.currentKind
            (type ++ name :: assign :: (init ++ stop :: rest))).declared.map Variable.name =
          name :: others ∧
        (others ≠ [] ↔ StartsNext file scopes.currentKind (behind ++ stop :: rest)) := by
    have isUnstopped := unstopped (split ▸ List.subset_append_left _ _) noComma
    rw [split, List.append_assoc]
    exact Declaration.names_of_initializer_comma file scopes.currentKind isType isName isAssign
      isUnstopped isComma (behind ++ stop :: rest)
  cases found : init.find? fun token => token.kind = .punct .comma with
  | none =>
    have noComma : ∀ token ∈ init, token.kind ≠ .punct .comma := by simpa using found
    have isUnstopped := unstopped (List.Subset.refl init) noComma
    rw [Declaration.names_of_initializer_end file scopes.currentKind isType isName isAssign
      isUnstopped isEnd rest]
    refine ⟨rfl, iff_of_true rfl ?_⟩
    rintro front comma behind rfl isComma
    exact absurd isComma (noComma comma (by simp))
  | some comma =>
    obtain ⟨isComma, front, behind, split, noComma⟩ := List.find?_eq_some_iff_append.1 found
    simp only [decide_eq_true_eq, Bool.not_eq_true', decide_eq_false_iff_not] at isComma noComma
    obtain ⟨others, names, further⟩ := divided split isComma noComma
    refine ⟨by simp [names], ?_, ?_⟩
    · intro single front comma behind split isComma noComma starts
      obtain ⟨others, names, further⟩ := divided split isComma noComma
      rw [names] at single
      exact further.2 starts (List.cons.inj single).2
    · intro none
      have nothing : others = [] := by
        by_contra some
        exact none front comma behind split isComma noComma (further.1 some)
      rw [names, nothing]

def argumentsText : String := "int x = f<a, b, c>(0);"

def argumentsLexemes : List Lexeme :=
  [⟨.word, "int", .ofLength 0 3⟩, ⟨.word, "x", .ofLength 4 1⟩,
    ⟨.punct .assign, "=", .ofLength 6 1⟩, ⟨.word, "f", .ofLength 8 1⟩,
    ⟨.opening .angle, "<", .ofLength 9 1⟩, ⟨.word, "a", .ofLength 10 1⟩,
    ⟨.punct .comma, ",", .ofLength 11 1⟩, ⟨.word, "b", .ofLength 13 1⟩,
    ⟨.punct .comma, ",", .ofLength 14 1⟩, ⟨.word, "c", .ofLength 16 1⟩,
    ⟨.closing .angle, ">", .ofLength 17 1⟩, ⟨.opening .round, "(", .ofLength 18 1⟩,
    ⟨.number, "0", .ofLength 19 1⟩, ⟨.closing .round, ")", .ofLength 20 1⟩,
    ⟨.punct .semicolon, ";", .ofLength 21 1⟩]

theorem lex_argumentsText : lex argumentsText = .ok argumentsLexemes := by cbv

def argumentsChain : Chain := .ofLexemes .cpp ⟨[]⟩ argumentsLexemes

theorem tokenize_argumentsText : tokenize argumentsText .cpp = .ok argumentsChain := by
  simp only [tokenize, lex_argumentsText]
  rfl

def argumentsToken (id : Nat) (kind : TokenKind) (text : String) (start size : Nat) : Token :=
  ⟨id, kind, text, .ofLength start size, ⟨0, start⟩, []⟩

def argumentsType : List Token := [argumentsToken 0 (.keyword .kwInt) "int" 0 3]

def argumentsName : Token := argumentsToken 1 .identifier "x" 4 1

def argumentsAssign : Token := argumentsToken 2 (.punct .assign) "=" 6 1

def argumentsRun : List Token :=
  [argumentsToken 4 (.opening .angle) "<" 9 1, argumentsToken 5 .identifier "a" 10 1,
    argumentsToken 6 (.punct .comma) "," 11 1, argumentsToken 7 .identifier "b" 13 1,
    argumentsToken 8 (.punct .comma) "," 14 1, argumentsToken 9 .identifier "c" 16 1,
    argumentsToken 10 (.closing .angle) ">" 17 1]

def argumentsInit : List Token :=
  argumentsToken 3 .identifier "f" 8 1 :: argumentsRun ++
    [⟨14, .group .round, "( 0 )", .ofLength 18 3, ⟨0, 18⟩,
      [argumentsToken 11 (.opening .round) "(" 18 1, argumentsToken 12 .number "0" 19 1,
        argumentsToken 13 (.closing .round) ")" 20 1]⟩]

def argumentsStop : Token := argumentsToken 15 (.punct .semicolon) ";" 21 1

theorem live_argumentsChain : argumentsChain.live =
    argumentsType ++ argumentsName :: argumentsAssign :: (argumentsInit ++ [argumentsStop]) := by
  rfl

theorem isType_argumentsType : IsType argumentsType where
  pieces := .token rfl .nil
  ends := by simp [argumentsType, argumentsToken]
  starts := ⟨_, rfl, .inr ⟨.kwInt, rfl⟩⟩

/-- What an initializer consists of if all of its commas lie in angle runs. -/
def TokenKind.isInitializerPiece (kind : TokenKind) : Bool :=
  kind ≠ .opening .angle && kind ≠ .punct .comma && kind ≠ .punct .semicolon &&
    kind ≠ .opening .curly

theorem pieces_argumentsInit : Pieces TokenKind.isInitializerPiece argumentsInit := by
  have isRun : AngleRun.IsRun argumentsRun := AngleRun.isRun_cons_iff.2 ⟨rfl, rfl⟩
  exact .token rfl (.run isRun (.token rfl .nil))

theorem noEnd_argumentsInit :
    ∀ token ∈ argumentsInit, token.kind ≠ .punct .semicolon ∧ token.kind ≠ .opening .curly := by
  simp [argumentsInit, argumentsRun, argumentsToken]

theorem startsNext_behind_argumentsInit : StartsNext ⟨.cpp, false⟩ .inNamespace
    (argumentsInit.drop 4 ++ [argumentsStop]) :=
  ⟨[], [], [argumentsToken 7 .identifier "b" 13 1], argumentsToken 8 (.punct .comma) "," 14 1,
    _, _, rfl, .token rfl .nil, nofun, nofun, .plain rfl (by simp [argumentsToken, plainEnds])⟩

theorem anchors_initializer_arguments :
    IsType argumentsType ∧
      (∀ token ∈ argumentsInit,
        token.kind ≠ .punct .semicolon ∧ token.kind ≠ .opening .curly) ∧
      argumentsChain.live =
        argumentsType ++ argumentsName :: argumentsAssign :: (argumentsInit ++ [argumentsStop]) ∧
      (argumentsChain.offers Collector.sink ⟨.cpp, false⟩ ⟨false, false⟩ .empty
        (.empty TagKind.all)).map Offer.anchor ≠ [argumentsName] := by
  refine ⟨isType_argumentsType, noEnd_argumentsInit, live_argumentsChain, fun single => ?_⟩
  have only := (anchors_initializer_iff Collector.sink ⟨.cpp, false⟩ ⟨false, false⟩ argumentsChain
    .empty (.empty TagKind.all) isType_argumentsType rfl rfl noEnd_argumentsInit (.inl rfl)
    live_argumentsChain).2.1 single
  have noComma : ∀ token ∈ argumentsInit.take 3, token.kind ≠ .punct .comma := by
    simp [argumentsInit, argumentsRun, argumentsToken]
  exact only (argumentsInit.take 3) _ _ rfl rfl noComma startsNext_behind_argumentsInit

/-- A template argument is declared as a variable, although every comma of the
initializer lies in an angle run. -/
theorem template_argument_declared :
    tokenize argumentsText .cpp = .ok argumentsChain ∧
      IsType argumentsType ∧ argumentsName.kind = .identifier ∧
      Pieces TokenKind.isInitializerPiece argumentsInit ∧
      (∀ token ∈ argumentsInit,
        token.kind ≠ .punct .semicolon ∧ token.kind ≠ .opening .curly) ∧
      argumentsChain.live =
        argumentsType ++ argumentsName :: argumentsAssign :: (argumentsInit ++ [argumentsStop]) ∧
      (argumentsChain.offers Collector.sink ⟨.cpp, false⟩ ⟨false, false⟩ .empty
        (.empty TagKind.all)).map Offer.name = ["x", "b"] :=
  ⟨tokenize_argumentsText, isType_argumentsType, rfl, pieces_argumentsInit, noEnd_argumentsInit,
    live_argumentsChain, by decide +kernel⟩

end Chain

end DeclScan
