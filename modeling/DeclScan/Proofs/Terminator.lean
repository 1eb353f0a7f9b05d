import Mathlib
import DeclScan.Proofs.DeclaratorList
import DeclScan.Proofs.Independence

/-!
# What follows the end of a statement

A declaration that is read up to a semicolon or an opening curly bracket names
the same variables whatever follows that token: `Declaration.EndsAt.replace`.
The storage keywords of a statement are looked for in all of its live tokens,
though.  Those behind the end mark its tags as well, and
`storageMarks_scanStatement_iff` says when they make a difference.
-/

set_option autoImplicit false

namespace DeclScan

theorem PointerShape.congr {name group : Token} {after after' : List Token}
    (sameHead : after.head? = after'.head?) (shape : PointerShape name group after) :
    PointerShape name group after' :=
  ⟨shape.isGroup, sameHead ▸ shape.parameters, shape.nested⟩

theorem head?_replace (near rest other : List Token) (stop : Token) :
    (near ++ stop :: rest).head? = (near ++ stop :: other).head? := by
  cases near <;> rfl

/-- How a lead-in ends is told by the tokens up to the one that ends the
declarator. -/
theorem Ending.replace {file : SourceFile} {entry : ScopeKind} {holder stop notable name : Token}
    {near rest held after : List Token} (isStop : stop.kind.IsStop)
    (ending : Ending file entry held notable after name)
    (isHolder : holder :: (near ++ stop :: rest) = held ++ notable :: after)
    (other : List Token) :
    ∃ after', holder :: (near ++ stop :: other) = held ++ notable :: after' ∧
      Ending file entry held notable after' name := by
  cases ending with
  | plain isName isEnd =>
    obtain ⟨rfl, isNear⟩ := List.cons.inj isHolder
    cases near with
    | nil =>
      obtain ⟨rfl, _⟩ := List.cons.inj isNear
      exact ⟨other, rfl, .plain isName isEnd⟩
    | cons next others =>
      obtain ⟨rfl, _⟩ := List.cons.inj isNear
      exact ⟨others ++ stop :: other, rfl, .plain isName isEnd⟩
  | arguments isName isGroup noPointer isCpp inside accepted =>
    obtain ⟨rfl, isNear⟩ := List.cons.inj isHolder
    cases near with
    | nil =>
      obtain ⟨rfl, _⟩ := List.cons.inj isNear
      exact absurd (isGroup ▸ isStop) not_isStop_round
    | cons next others =>
      obtain ⟨rfl, rfl⟩ := List.cons.inj isNear
      refine ⟨others ++ stop :: other, rfl, .arguments isName isGroup ?_ isCpp inside accepted⟩
      intro nested shape
      exact noPointer nested (shape.congr (head?_replace others other rest stop))
  | pointer shape =>
    obtain ⟨rfl, rfl⟩ := List.cons.inj isHolder
    exact ⟨near ++ stop :: other, rfl, .pointer (shape.congr (head?_replace near rest other stop))⟩

namespace Declarator

def withAhead (declarator : Declarator) (ahead : List Token) : Declarator :=
  ⟨{ declarator.site with ahead := ahead }, declarator.qualification⟩

theorem find?_replace {file : SourceFile} {entry : ScopeKind} {passed ahead near rest : List Token}
    {stop : Token} {declarator : Declarator} (isStop : stop.kind.IsStop)
    (start : StartsDeclarator passed) (found : find? file entry passed ahead = some declarator)
    (split : declarator.ahead = near ++ stop :: rest) :
    ∃ front, ahead = front ++ stop :: rest ∧ ∀ other,
      find? file entry passed (front ++ stop :: other) =
        some (declarator.withAhead (near ++ stop :: other)) := by
  obtain ⟨lead, held, notable, after, whole, pieces, ending, isHolder, isBefore, qualified⟩ :=
    (find?_iff_ending start).1 found
  rw [split] at isHolder
  refine ⟨lead ++ declarator.site.holder :: near, ?_, fun other => ?_⟩
  · rw [whole, List.append_assoc, ← isHolder]
    simp
  · obtain ⟨after', isHolder', ending'⟩ := ending.replace isStop isHolder other
    rw [find?_iff_ending start]
    refine ⟨lead, held, notable, after', ?_, pieces, ending', isHolder', isBefore, qualified⟩
    rw [List.append_assoc, List.append_assoc, ← isHolder']
    simp

end Declarator

/-! ## Declarations -/

namespace Declaration

/-- Reading on from a place ends at this token, which the given tokens follow. -/
inductive EndsAt (file : SourceFile) (entry : ScopeKind) (stop : Token) (rest : List Token) :
    Option Token → List Token → List Token → Prop where
  | here {known : Option Token} {passed ahead tail : List Token} {declarator : Declarator}
      {typeEnd : Token} :
      Declarator.find? file entry passed ahead = some declarator →
      typeEnd? known declarator = some typeEnd →
      Unstopped tail → declarator.ahead = tail ++ stop :: rest →
      EndsAt file entry stop rest known passed ahead
  | later {known : Option Token} {passed ahead nearer others : List Token}
      {declarator : Declarator} {typeEnd : Token} :
      Declarator.find? file entry passed ahead = some declarator →
      typeEnd? known declarator = some typeEnd →
      nextDeclarator? declarator.settled declarator.ahead = some (nearer, others) →
      EndsAt file entry stop rest (some typeEnd) nearer others →
      EndsAt file entry stop rest known passed ahead

/-- The live tokens start with a word and are read up to this token. -/
structure Terminated (file : SourceFile) (entry : ScopeKind) (stop : Token)
    (rest live : List Token) : Prop where
  starts : ∃ first ∈ live.head?, first.kind.isWord = true
  isEnd : stop.kind = .punct .semicolon ∨ stop.kind = .opening .curly
  ends : EndsAt file entry stop rest none [] live

variable {file : SourceFile} {entry : ScopeKind} {stop : Token} {rest : List Token}

/-- Whatever follows the end, the same names are declared, with the same
qualifiers, and the same tokens are kept before the end. -/
theorem EndsAt.replace {known : Option Token} {passed ahead : List Token}
    (isEnd : stop.kind = .punct .semicolon ∨ stop.kind = .opening .curly)
    (ends : EndsAt file entry stop rest known passed ahead) (start : StartsDeclarator passed) :
    ∃ front kept named, ahead = front ++ stop :: rest ∧ named ≠ [] ∧ ∀ other,
      EndsAt file entry stop other known passed (front ++ stop :: other) ∧
      ((readFrom file entry known passed (front ++ stop :: other)).declared.map fun declared =>
        (declared.name, declared.qualifiers)) = named ∧
      (readFrom file entry known passed (front ++ stop :: other)).live =
        kept ++ stop :: other := by
  -- what is replaced stands ahead of every declarator, and behind the token that ends it
  induction ends with
  | @here known passed ahead tail declarator typeEnd found ended unstopped split =>
    obtain ⟨front, whole, replaced⟩ := Declarator.find?_replace (.inr isEnd) start found split
    refine ⟨front, declarator.settled.reverse ++ tail, [(declarator.name, declarator.qualifiers)],
      whole, by simp, fun other => ⟨.here (replaced other) ended unstopped rfl, ?_⟩⟩
    have ended' : typeEnd? known (declarator.withAhead (tail ++ stop :: other)) = some typeEnd :=
      ended
    have noNext : nextDeclarator? (declarator.withAhead (tail ++ stop :: other)).settled
        (declarator.withAhead (tail ++ stop :: other)).ahead = none := by
      have reached := nextDeclarator?_of_end isEnd (tail.reverse ++ declarator.settled) other
      rw [← nextDeclarator?_append unstopped] at reached
      exact reached
    rw [readFrom_eq]
    simp only [replaced other, ended', noNext]
    exact ⟨rfl, (List.append_assoc ..).symm⟩
  | @later known passed ahead nearer others declarator typeEnd found ended next _ ih =>
    obtain ⟨between, comma, unstopped, isComma, isAhead, rfl⟩ := nextDeclarator?_eq_some_iff.1 next
    obtain ⟨front, kept, named, rfl, _, further⟩ := ih (startsDeclarator_cons _ isComma)
    have split : declarator.ahead = (between ++ comma :: front) ++ stop :: rest := by
      rw [isAhead]
      simp
    obtain ⟨front', whole, replaced⟩ := Declarator.find?_replace (.inr isEnd) start found split
    refine ⟨front', kept, (declarator.name, declarator.qualifiers) :: named, whole, by simp,
      fun other => ?_⟩
    obtain ⟨furtherEnds, furtherNamed, furtherKept⟩ := further other
    have ended' : typeEnd? known
        (declarator.withAhead (between ++ comma :: front ++ stop :: other)) = some typeEnd := ended
    have next' : nextDeclarator?
        (declarator.withAhead (between ++ comma :: front ++ stop :: other)).settled
        (declarator.withAhead (between ++ comma :: front ++ stop :: other)).ahead =
          some (comma :: (between.reverse ++ declarator.settled), front ++ stop :: other) :=
      nextDeclarator?_eq_some_iff.2 ⟨between, comma, unstopped, isComma, by
        simp [Declarator.withAhead, Declarator.ahead], rfl⟩
    refine ⟨.later (replaced other) ended' next' furtherEnds, ?_⟩
    rw [readFrom_eq]
    simp only [replaced other, ended', next']
    exact ⟨congrArg _ furtherNamed, furtherKept⟩

theorem Terminated.replace {live : List Token} (terminated : Terminated file entry stop rest live) :
    ∃ front kept named, live = front ++ stop :: rest ∧ named ≠ [] ∧ ∀ other,
      Terminated file entry stop other (front ++ stop :: other) ∧
      ((read file entry (front ++ stop :: other)).declared.map fun declared =>
        (declared.name, declared.qualifiers)) = named ∧
      (read file entry (front ++ stop :: other)).live = kept ++ stop :: other := by
  obtain ⟨starts, isEnd, ends⟩ := terminated
  obtain ⟨front, kept, named, rfl, some, further⟩ := ends.replace isEnd startsDeclarator_nil
  refine ⟨front, kept, named, rfl, some, fun other => ?_⟩
  rw [head?_replace front rest other] at starts
  obtain ⟨ends', declared, isKept⟩ := further other
  rw [read_of_starts starts]
  exact ⟨⟨starts, isEnd, ends'⟩, declared, isKept⟩

/-- A statement with a single declarator ends behind it. -/
theorem terminated_of_shape {type own : List Token} {qualifiers : List Qualifier} {name : Token}
    (isType : IsType type) (shape : DeclaratorShape file entry qualifiers own name)
    (isEnd : stop.kind = .punct .semicolon ∨ stop.kind = .opening .curly) (rest : List Token) :
    Terminated file entry stop rest
      (type ++ (qualifiers.flatMap Qualifier.tokens ++ own ++ stop :: rest)) := by
  obtain ⟨declarator, typeEnd, tail, found, _, ended, unstopped, ahead⟩ :=
    exists_first_of_shape isType shape (.inr isEnd) rest
  exact ⟨isType.starts_append _, isEnd, .here found ended unstopped ahead⟩

end Declaration

/-! ## Marks of storage keywords -/

def Tag.storageMarks (tag : Tag) : TagKind × Bool := (tag.kind, tag.fileScope)

def Tag.withoutTypeReference (tag : Tag) : Tag := { tag with typeReference := none }

theorem ScopeStack.variableKind_ne_external (stack : ScopeStack) :
    stack.variableKind ≠ .externalVariable := by
  cases isKind : stack.currentKind <;> simp [variableKind, isKind]

namespace Scan

variable {context other : Context} {scopes : ScopeStack} {declared declared' : Variable}

theorem Context.offered_eq (sameExtern : context.storage.seenExtern = other.storage.seenExtern)
    (same : (declared.name, declared.qualifiers) = (declared'.name, declared'.qualifiers)) :
    context.offered scopes declared = other.offered scopes declared' := by
  obtain ⟨sameName, sameQualifiers⟩ := Prod.mk.inj same
  simp only [Context.offered, Context.offer, sameExtern, sameName, sameQualifiers]

/-- Whether external storage was seen shows in the kind of every offer. -/
theorem Context.kind_offered_eq_iff
    (same : (declared.name, declared.qualifiers) = (declared'.name, declared'.qualifiers)) :
    (context.offered scopes declared).kind = (other.offered scopes declared').kind ↔
      context.storage.seenExtern = other.storage.seenExtern := by
  constructor
  · intro sameKind
    have notExternal := (enterQualifiers scopes declared.qualifiers).variableKind_ne_external
    simp only [Context.offered, Context.offer, ← (Prod.mk.inj same).2] at sameKind
    cases seen : context.storage.seenExtern <;> cases seen' : other.storage.seenExtern
    · rfl
    · simp only [seen, seen'] at sameKind
      exact absurd sameKind notExternal
    · simp only [seen, seen'] at sameKind
      exact absurd sameKind.symm notExternal
    · rfl
  · intro sameExtern
    rw [Context.offered_eq sameExtern same]

/-- Static storage shows in file scopes at namespace level, unless the file is a
header. -/
theorem Context.isFileScope_eq_iff {file : SourceFile} {entry : ScopeKind}
    {storage storage' : Storage} :
    Context.isFileScope ⟨file, storage, entry⟩ = Context.isFileScope ⟨file, storage', entry⟩ ↔
      (entry = .inNamespace → file.isHeader = false →
        storage.seenStatic = storage'.seenStatic) := by
  cases entry <;> cases isHeader : file.isHeader <;> simp [Context.isFileScope, isHeader]

theorem offerAll_accepting (context : Context) (scopes : ScopeStack) (found : List Variable)
    (tags : Array Tag) :
    offerAll (.ofPolicy fun (_ : Unit) _ => (true, ())) context scopes found ((), tags) =
      ((), tags ++ (found.map fun declared =>
        context.complete declared (context.offered scopes declared).tag).toArray) := by
  induction found generalizing tags with
  | nil => simp [offerAll]
  | cons declared rest ih =>
    have step := ih (tags.push (context.complete declared (context.offered scopes declared).tag))
    simp only [List.map_cons]
    rw [← Array.append_singleton] at step
    rw [List.toArray_cons, ← Array.append_assoc]
    exact step

theorem agree_of_marks {found found' : List Variable} (some : found ≠ [])
    (same : List.Forall₂ (fun declared declared' =>
      (declared.name, declared.qualifiers) = (declared'.name, declared'.qualifiers)) found found')
    (marks : (found.map fun declared =>
        (context.complete declared (context.offered scopes declared).tag).storageMarks) =
      found'.map fun declared =>
        (other.complete declared (other.offered scopes declared).tag).storageMarks) :
    context.storage.seenExtern = other.storage.seenExtern ∧
      context.isFileScope = other.isFileScope := by
  cases same with
  | nil => exact absurd rfl some
  | cons sameFirst _ =>
    obtain ⟨sameKind, sameFileScope⟩ := Prod.mk.inj (List.cons.inj marks).1
    exact ⟨(Context.kind_offered_eq_iff sameFirst).1 sameKind, sameFileScope⟩

end Scan

namespace Chain

section Replaced

variable {file : SourceFile} {entry : ScopeKind} {scopes : ScopeStack} {stop : Token}
  {chain chain' : Chain} {front rest rest' : List Token}

theorem forall₂_declared (terminated : Declaration.Terminated file entry stop rest chain.live)
    (live : chain.live = front ++ stop :: rest) (live' : chain'.live = front ++ stop :: rest') :
    (Declaration.read file entry chain.live).declared ≠ [] ∧
      List.Forall₂ (fun declared declared' =>
          (declared.name, declared.qualifiers) = (declared'.name, declared'.qualifiers))
        (Declaration.read file entry chain.live).declared
        (Declaration.read file entry chain'.live).declared := by
  obtain ⟨start, kept, named, whole, some, further⟩ := terminated.replace
  obtain rfl : start = front := by
    rw [whole] at live
    exact List.append_cancel_right live
  obtain ⟨_, declared, _⟩ := further rest
  obtain ⟨_, declared', _⟩ := further rest'
  rw [← live] at declared
  rw [← live'] at declared'
  refine ⟨?_, ?_⟩
  · intro nothing
    rw [nothing] at declared
    exact some declared.symm
  · have same := declared.trans declared'.symm
    rw [← List.forall₂_eq_eq_eq, List.forall₂_map_left_iff, List.forall₂_map_right_iff] at same
    exact same

/-- Storage keywords are the only thing behind the end that shows in marks. -/
theorem storageMarks_scan_iff
    (terminated : Declaration.Terminated file scopes.currentKind stop rest chain.live)
    (live : chain.live = front ++ stop :: rest) (live' : chain'.live = front ++ stop :: rest')
    (storage storage' : Storage) :
    (∀ (ρ : Type) (policy : ρ → Offer → Bool × ρ) (memory : ρ),
        (chain.scan (.ofPolicy policy) file storage scopes (memory, #[])).state.2.map
            Tag.storageMarks =
          (chain'.scan (.ofPolicy policy) file storage' scopes (memory, #[])).state.2.map
            Tag.storageMarks) ↔
      storage.seenExtern = storage'.seenExtern ∧
        (scopes.currentKind = .inNamespace → file.isHeader = false →
          storage.seenStatic = storage'.seenStatic) := by
  obtain ⟨some, same⟩ := forall₂_declared terminated live live'
  rw [← Scan.Context.isFileScope_eq_iff]
  constructor
  · intro sameMarks
    have first := sameMarks Unit (fun _ _ => (true, ())) ()
    rw [state_scan, state_scan, Scan.offerAll_accepting, Scan.offerAll_accepting] at first
    have agree := @Scan.agree_of_marks ⟨file, storage, scopes.currentKind⟩
      ⟨file, storage', scopes.currentKind⟩ scopes _ _ some same
    exact agree (by simpa [Function.comp_def] using first)
  · rintro ⟨sameExtern, sameFileScope⟩ ρ policy memory
    have lookSame : List.Forall₂ (Scan.LookSame id Tag.withoutTypeReference
          ⟨file, storage, scopes.currentKind⟩ ⟨file, storage', scopes.currentKind⟩ scopes)
        (Declaration.read file scopes.currentKind chain.live).declared
        (Declaration.read file scopes.currentKind chain'.live).declared := by
      refine same.imp fun declared declared' sameNames => ⟨?_, ?_⟩
      · exact Scan.Context.offered_eq sameExtern sameNames
      · intro tag tag' sameTag
        simp only [Tag.withoutTypeReference, Tag.mk.injEq] at sameTag
        simp [Scan.Context.complete, Tag.withoutTypeReference, sameTag, sameFileScope]
    have alike :
        (chain.scan (.ofPolicy policy) file storage scopes (memory, #[])).state.2.map
            Tag.withoutTypeReference =
          (chain'.scan (.ofPolicy policy) file storage' scopes (memory, #[])).state.2.map
            Tag.withoutTypeReference :=
      (alike_scan (Sink.sees_ofPolicy policy) lookSame ⟨rfl, rfl⟩).1.2
    have marks := congrArg (Array.map Tag.storageMarks) alike
    rw [Array.map_map, Array.map_map] at marks
    exact marks

end Replaced

end Chain

/-- Of two texts that agree up to the token that ends the first statement, all
policies get tags with the same storage marks if and only if the storage keywords
among all their live tokens agree: on external storage and, at namespace level
outside of headers, on static storage. -/
theorem storageMarks_scanStatement_iff {file : SourceFile} {source source' : String}
    {chain chain' : Chain} {scopes : ScopeStack} {stop : Token} {front rest rest' : List Token}
    (tokenized : tokenize source file.language = .ok chain)
    (tokenized' : tokenize source' file.language = .ok chain')
    (terminated : Declaration.Terminated file scopes.currentKind stop rest chain.live)
    (live : chain.live = front ++ stop :: rest) (live' : chain'.live = front ++ stop :: rest') :
    (∀ (ρ : Type) (policy : ρ → Offer → Bool × ρ) (memory : ρ),
        ((scanStatement (.ofPolicy policy) file source scopes (memory, #[])).map fun outcome =>
            outcome.state.2.map Tag.storageMarks) =
          (scanStatement (.ofPolicy policy) file source' scopes (memory, #[])).map fun outcome =>
            outcome.state.2.map Tag.storageMarks) ↔
      (Storage.ofTokens chain.live).seenExtern = (Storage.ofTokens chain'.live).seenExtern ∧
        (scopes.currentKind = .inNamespace → file.isHeader = false →
          (Storage.ofTokens chain.live).seenStatic =
            (Storage.ofTokens chain'.live).seenStatic) := by
  rw [← Chain.storageMarks_scan_iff terminated live live']
  simp only [scanStatement, tokenized, tokenized', Except.map, Except.ok.injEq]

def captureLexemes : List Lexeme :=
  [⟨.word, "int", .ofLength 0 3⟩, ⟨.word, "v", .ofLength 4 1⟩,
    ⟨.punct .assign, "=", .ofLength 6 1⟩, ⟨.opening .square, "[", .ofLength 8 1⟩,
    ⟨.closing .square, "]", .ofLength 9 1⟩, ⟨.opening .curly, "\x7b", .ofLength 11 1⟩]

def staticText : String := "int v = [] \x7b static int n; return n; \x7d();"

def staticLexemes : List Lexeme :=
  captureLexemes ++ [⟨.word, "static", .ofLength 13 6⟩, ⟨.word, "int", .ofLength 20 3⟩,
    ⟨.word, "n", .ofLength 24 1⟩, ⟨.punct .semicolon, ";", .ofLength 25 1⟩,
    ⟨.word, "return", .ofLength 27 6⟩, ⟨.word, "n", .ofLength 34 1⟩,
    ⟨.punct .semicolon, ";", .ofLength 35 1⟩, ⟨.closing .curly, "\x7d", .ofLength 37 1⟩,
    ⟨.opening .round, "(", .ofLength 38 1⟩, ⟨.closing .round, ")", .ofLength 39 1⟩,
    ⟨.punct .semicolon, ";", .ofLength 40 1⟩]

def emptyText : String := "int v = [] \x7b\x7d();"

def emptyLexemes : List Lexeme :=
  captureLexemes ++ [⟨.closing .curly, "\x7d", .ofLength 12 1⟩,
    ⟨.opening .round, "(", .ofLength 13 1⟩, ⟨.closing .round, ")", .ofLength 14 1⟩,
    ⟨.punct .semicolon, ";", .ofLength 15 1⟩]

theorem lex_staticText : lex staticText = .ok staticLexemes := by cbv

theorem lex_emptyText : lex emptyText = .ok emptyLexemes := by cbv

def lambdaChain (lexemes : List Lexeme) : Chain := .ofLexemes .cpp ⟨[]⟩ lexemes

theorem tokenize_staticText : tokenize staticText .cpp = .ok (lambdaChain staticLexemes) := by
  simp only [tokenize, lex_staticText]
  rfl

theorem tokenize_emptyText : tokenize emptyText .cpp = .ok (lambdaChain emptyLexemes) := by
  simp only [tokenize, lex_emptyText]
  rfl

def lambdaType : List Token := [⟨0, .keyword .kwInt, "int", .ofLength 0 3, ⟨0, 0⟩, []⟩]

def lambdaName : Token := ⟨1, .identifier, "v", .ofLength 4 1, ⟨0, 4⟩, []⟩

def lambdaOwn : List Token :=
  [lambdaName, ⟨2, .punct .assign, "=", .ofLength 6 1, ⟨0, 6⟩, []⟩,
    ⟨5, .group .square, "[ ]", .ofLength 8 2, ⟨0, 8⟩,
      [⟨3, .opening .square, "[", .ofLength 8 1, ⟨0, 8⟩, []⟩,
        ⟨4, .closing .square, "]", .ofLength 9 1, ⟨0, 9⟩, []⟩]⟩]

def lambdaStop : Token := ⟨6, .opening .curly, "\x7b", .ofLength 11 1, ⟨0, 11⟩, []⟩

theorem live_staticText : (lambdaChain staticLexemes).live =
    (lambdaType ++ lambdaOwn) ++ lambdaStop :: (lambdaChain staticLexemes).live.drop 5 := by
  rfl

theorem live_emptyText : (lambdaChain emptyLexemes).live =
    (lambdaType ++ lambdaOwn) ++ lambdaStop :: (lambdaChain emptyLexemes).live.drop 5 := by
  rfl

theorem terminated_staticText (isHeader : Bool) :
    Declaration.Terminated ⟨.cpp, isHeader⟩ .inNamespace lambdaStop
      ((lambdaChain staticLexemes).live.drop 5) (lambdaChain staticLexemes).live := by
  have isType : IsType lambdaType :=
    { pieces := .token rfl .nil
      ends := by simp [lambdaType]
      starts := ⟨_, rfl, .inr ⟨.kwInt, rfl⟩⟩ }
  have shape : DeclaratorShape ⟨.cpp, isHeader⟩ .inNamespace [] lambdaOwn lambdaName :=
    .trailed nofun rfl (.inr (.inl rfl)) (by simp [Unstopped, TokenKind.IsStop])
  rw [live_staticText]
  exact Declaration.terminated_of_shape isType shape (.inr rfl) _

theorem storageMarks_scanStatement_lambdas :
    tokenize staticText .cpp = .ok (lambdaChain staticLexemes) ∧
      tokenize emptyText .cpp = .ok (lambdaChain emptyLexemes) ∧
      Declaration.Terminated ⟨.cpp, true⟩ .inNamespace lambdaStop
        ((lambdaChain staticLexemes).live.drop 5) (lambdaChain staticLexemes).live ∧
      ∀ (ρ : Type) (policy : ρ → Offer → Bool × ρ) (memory : ρ),
        ((scanStatement (.ofPolicy policy) ⟨.cpp, true⟩ staticText .empty (memory, #[])).map
            fun outcome => outcome.state.2.map Tag.storageMarks) =
          (scanStatement (.ofPolicy policy) ⟨.cpp, true⟩ emptyText .empty (memory, #[])).map
            fun outcome => outcome.state.2.map Tag.storageMarks := by
  refine ⟨tokenize_staticText, tokenize_emptyText, terminated_staticText true, ?_⟩
  have same := @storageMarks_scanStatement_iff ⟨.cpp, true⟩ _ _ _ _ .empty _ _ _ _
    tokenize_staticText tokenize_emptyText (terminated_staticText true) live_staticText
    live_emptyText
  exact same.2 ⟨by decide +kernel, nofun⟩

/-- In any other file the variable of the statement is marked as if it were
static itself. -/
theorem static_behind_end_marks :
    tokenize staticText .cpp = .ok (lambdaChain staticLexemes) ∧
      tokenize emptyText .cpp = .ok (lambdaChain emptyLexemes) ∧
      Declaration.Terminated ⟨.cpp, false⟩ .inNamespace lambdaStop
        ((lambdaChain staticLexemes).live.drop 5) (lambdaChain staticLexemes).live ∧
      (lambdaChain staticLexemes).live.take 5 = (lambdaChain emptyLexemes).live.take 5 ∧
      (∃ outcome, scanStatement Collector.sink ⟨.cpp, false⟩ staticText .empty
          (.empty TagKind.all) = .ok outcome ∧
        outcome.state.tags.map Tag.storageMarks = #[(.namespaceVariable, true)]) ∧
      ∃ outcome, scanStatement Collector.sink ⟨.cpp, false⟩ emptyText .empty
          (.empty TagKind.all) = .ok outcome ∧
        outcome.state.tags.map Tag.storageMarks = #[(.namespaceVariable, false)] := by
  refine ⟨tokenize_staticText, tokenize_emptyText, terminated_staticText false, rfl,
    ⟨_, by rw [scanStatement, tokenize_staticText], ?_⟩,
    ⟨_, by rw [scanStatement, tokenize_emptyText], ?_⟩⟩
  · decide +kernel
  · decide +kernel

end DeclScan
