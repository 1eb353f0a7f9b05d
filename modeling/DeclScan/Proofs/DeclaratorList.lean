import DeclScan.Proofs.Acceptance

/-!
# Lists of declarators

A grammar for the statements that declare variables: a type, declarators with
commas between them, and a semicolon or an opening curly bracket.  The main
statement is `Chain.scan_declaratorList`: every statement of the grammar
is read completely, and offers its names in order.
-/

set_option autoImplicit false

namespace DeclScan

def TokenKind.isTypePiece : TokenKind → Bool
  | .identifier | .keyword _ => true
  | .punct .star | .punct .ampersand | .punct .doubleColon => true
  | _ => false

structure IsLead (lead : List Token) : Prop where
  pieces : Pieces TokenKind.isTypePiece lead
  ends : ∀ last ∈ lead.getLast?, last.kind ≠ .punct .doubleColon

structure IsType (type : List Token) : Prop extends IsLead type where
  starts : ∃ first ∈ type.head?, first.kind = .identifier ∨ ∃ keyword, first.kind = .keyword keyword

def TokenKind.IsStop (kind : TokenKind) : Prop :=
  kind = .punct .comma ∨ kind = .punct .semicolon ∨ kind = .opening .curly

def Unstopped (tokens : List Token) : Prop := ∀ token ∈ tokens, ¬ token.kind.IsStop

/-- The qualifiers of a declarator with the outermost one first, its tokens
behind these, and the name that it declares. -/
inductive DeclaratorShape (file : SourceFile) (entry : ScopeKind) :
    List Qualifier → List Token → Token → Prop where
  | bare {qualifiers : List Qualifier} {name : Token} :
      (∀ qualifier ∈ qualifiers, qualifier.IsPair) → name.kind = .identifier →
      DeclaratorShape file entry qualifiers [name] name
  | trailed {qualifiers : List Qualifier} {name notable : Token} {after : List Token} :
      (∀ qualifier ∈ qualifiers, qualifier.IsPair) → name.kind = .identifier →
      (notable.kind = .group .square ∨ notable.kind = .punct .assign ∨
        notable.kind = .punct .colon) →
      Unstopped after →
      DeclaratorShape file entry qualifiers (name :: notable :: after) name
  | arguments {qualifiers : List Qualifier} {name group : Token} {after : List Token} :
      (∀ qualifier ∈ qualifiers, qualifier.IsPair) → name.kind = .identifier →
      group.kind = .group .round → Signature.looksLikeArguments group = true →
      (∀ next ∈ after.head?, next.kind ≠ .group .round) → Unstopped after →
      file.language = .cpp → (entry = .inNamespace ∨ entry = .inFunction) →
      DeclaratorShape file entry qualifiers (name :: group :: after) name
  | pointer {name group parameters : Token} {after : List Token} :
      group.kind = .group .round →
      Token.lastNested? TokenKind.isIdentifier group.nested = some name →
      parameters.kind = .group .round → Signature.looksLikeParameters parameters = true →
      Unstopped after →
      DeclaratorShape file entry [] (group :: parameters :: after) name

/-- Declarators up to the token that ends the statement, and all that follows
it; the same tokens without the names of qualifiers; and the declared names
with their qualifiers. -/
inductive DeclaratorList (file : SourceFile) (entry : ScopeKind) :
    List Token → List Token → List (Token × List Qualifier) → Prop where
  | last {qualifiers : List Qualifier} {own : List Token} {name stop : Token}
      (rest : List Token) :
      DeclaratorShape file entry qualifiers own name →
      (stop.kind = .punct .semicolon ∨ stop.kind = .opening .curly) →
      DeclaratorList file entry (qualifiers.flatMap Qualifier.tokens ++ own ++ stop :: rest)
        (qualifiers.map Qualifier.colons ++ own ++ stop :: rest) [(name, qualifiers)]
  | more {qualifiers : List Qualifier} {own : List Token} {name comma : Token}
      {lead others kept : List Token} {names : List (Token × List Qualifier)} :
      DeclaratorShape file entry qualifiers own name →
      comma.kind = .punct .comma → IsLead lead → DeclaratorList file entry others kept names →
      DeclaratorList file entry
        (qualifiers.flatMap Qualifier.tokens ++ own ++ comma :: (lead ++ others))
        (qualifiers.map Qualifier.colons ++ own ++ comma :: (lead ++ kept))
        ((name, qualifiers) :: names)

/-! ## Reading the pieces -/

theorem TokenKind.isPassable_of_isTypePiece (kind : TokenKind)
    (isPiece : kind.isTypePiece = true) : kind.isPassable = true := by
  rw [isPassable_iff]
  cases kind with
  | punct punctuator => cases punctuator <;> simp_all [isTypePiece]
  | _ => simp_all [isTypePiece]

namespace IsLead

variable {lead : List Token}

theorem passable (isLead : IsLead lead) : Pieces TokenKind.isPassable lead :=
  isLead.pieces.mono TokenKind.isPassable_of_isTypePiece

theorem typeEnding (isLead : IsLead lead) {last : Token} (isLast : last ∈ lead.getLast?) :
    TypeEnding last.kind := by
  have noColons := isLead.ends last isLast
  rcases isLead.pieces.last_cases isLast with isPiece | closes
  · cases isKind : last.kind with
    | punct punctuator => cases punctuator <;> simp_all [TokenKind.isTypePiece, TypeEnding]
    | _ => simp_all [TokenKind.isTypePiece, TypeEnding]
  · exact .inr (.inr (.inl closes))

end IsLead

/-- Behind a comma, the nearest token before the next name's qualifiers is no
pair of colons. -/
theorem exists_nearest {lead : List Token}
    (ends : ∀ last ∈ lead.getLast?, last.kind ≠ .punct .doubleColon) {comma : Token}
    (passed : List Token) (isComma : comma.kind = .punct .comma) :
    ∃ nearest before, lead.reverse ++ comma :: passed = nearest :: before ∧
      nearest.kind ≠ .punct .doubleColon := by
  rcases List.eq_nil_or_concat lead with rfl | ⟨inner, last, rfl⟩
  · exact ⟨comma, passed, rfl, by simp [isComma]⟩
  · exact ⟨last, inner.reverse ++ comma :: passed, by simp, ends last (by simp)⟩

namespace IsType

variable {type : List Token}

theorem starts_append (isType : IsType type) (rest : List Token) :
    ∃ first ∈ (type ++ rest).head?, first.kind.isWord = true := by
  obtain ⟨first, isFirst, isWord⟩ := isType.starts
  cases type with
  | nil => cases isFirst
  | cons head others => exact ⟨first, isFirst, TokenKind.isWord_iff.2 isWord⟩

theorem exists_typeEnd (isType : IsType type) :
    ∃ typeEnd before, type.reverse ++ [] = typeEnd :: before ∧ TypeEnding typeEnd.kind := by
  rcases List.eq_nil_or_concat type with rfl | ⟨inner, last, rfl⟩
  · obtain ⟨_, absent, _⟩ := isType.starts
    cases absent
  · exact ⟨last, inner.reverse, by simp, isType.typeEnding (by simp)⟩

end IsType

theorem plainEnds_of_isStop {kind : TokenKind} (isStop : kind.IsStop) : kind ∈ plainEnds := by
  rcases isStop with rfl | rfl | rfl <;> simp [plainEnds]

theorem not_isStop_round : ¬ (TokenKind.group .round).IsStop := by
  simp [TokenKind.IsStop]

theorem Unstopped.cons {token : Token} {tokens : List Token} (noStop : ¬ token.kind.IsStop)
    (unstopped : Unstopped tokens) : Unstopped (token :: tokens) := by
  intro other member
  rcases List.mem_cons.1 member with rfl | member
  · exact noStop
  · exact unstopped other member

namespace DeclaratorShape

variable {file : SourceFile} {entry : ScopeKind} {qualifiers : List Qualifier}
  {own : List Token} {name : Token}

theorem pairs (shape : DeclaratorShape file entry qualifiers own name) :
    ∀ qualifier ∈ qualifiers, qualifier.IsPair := by
  cases shape with
  | bare pairs => exact pairs
  | trailed pairs => exact pairs
  | arguments pairs => exact pairs
  | pointer => simp

/-- Before a token that ends it, a declarator ends in one of the recognized
shapes, and its first token holds the name. -/
theorem exists_ending (shape : DeclaratorShape file entry qualifiers own name)
    {stop : Token} (isStop : stop.kind.IsStop) (rest : List Token) :
    ∃ holder tail held notable after,
      own = holder :: tail ∧ own ++ stop :: rest = held ++ notable :: after ∧
      Ending file entry held notable after name ∧
      Unstopped tail ∧ ∀ token ∈ held, token.kind = .identifier := by
  cases shape with
  | bare _ isName =>
    refine ⟨name, [], [name], stop, rest, rfl, rfl, ?_, by simp [Unstopped], by simpa⟩
    exact .plain isName (plainEnds_of_isStop isStop)
  | @trailed _ _ notable after _ isName isNotable unstopped =>
    have noStop : ¬ notable.kind.IsStop := by
      rcases isNotable with is | is | is <;> simp [is, TokenKind.IsStop]
    refine ⟨name, notable :: after, [name], notable, after ++ stop :: rest, rfl, rfl, ?_,
      .cons noStop unstopped, by simpa⟩
    apply Ending.plain isName
    rcases isNotable with is | is | is <;> simp [is, plainEnds]
  | @arguments _ _ group after _ isName isGroup accepted noGroup unstopped isCpp inside =>
    have noPointer (nested : Token) : ¬ PointerShape nested group (after ++ stop :: rest) := by
      intro pointer
      obtain ⟨next, isNext, isRound, _⟩ := pointer.parameters
      cases after with
      | nil =>
        obtain rfl : stop = next := by simpa using isNext
        exact not_isStop_round (isRound ▸ isStop)
      | cons head others => exact noGroup next isNext isRound
    refine ⟨name, group :: after, [name], group, after ++ stop :: rest, rfl, rfl, ?_,
      .cons (isGroup ▸ not_isStop_round) unstopped, by simpa⟩
    exact .arguments isName isGroup noPointer isCpp inside accepted
  | @pointer _ group parameters after isGroup nested isRound accepted unstopped =>
    refine ⟨group, parameters :: after, [], group, parameters :: after ++ stop :: rest, rfl, rfl,
      ?_, .cons (isRound ▸ not_isStop_round) unstopped, by simp⟩
    exact .pointer ⟨isGroup, ⟨parameters, rfl, isRound, accepted⟩, nested⟩

theorem exists_declarator (shape : DeclaratorShape file entry qualifiers own name)
    {stop : Token} (isStop : stop.kind.IsStop) (rest : List Token)
    {lead passed before : List Token} {typeEnd : Token} (start : StartsDeclarator passed)
    (passable : Pieces TokenKind.isPassable lead)
    (preceding : lead.reverse ++ passed = typeEnd :: before)
    (noColons : typeEnd.kind ≠ .punct .doubleColon) :
    ∃ declarator tail,
      Declarator.find? file entry passed
          (lead ++ (qualifiers.flatMap Qualifier.tokens ++ own ++ stop :: rest)) =
        some declarator ∧
      declarator.name = name ∧
      declarator.qualifiers = (qualifiers.map Qualifier.name).reverse ∧
      declarator.qualification.typeEnd = typeEnd ∧
      Unstopped tail ∧ declarator.ahead = tail ++ stop :: rest ∧
      declarator.settled.reverse ++ tail =
        passed.reverse ++ (lead ++ (qualifiers.map Qualifier.colons ++ own)) := by
  obtain ⟨holder, tail, held, notable, after, rfl, whole, ending, unstopped, isHeld⟩ :=
    shape.exists_ending isStop rest
  have pieces : Pieces TokenKind.isPassable
      (lead ++ qualifiers.flatMap Qualifier.tokens ++ held) := by
    refine (passable.append (.of_forall ?_)).append (.of_forall ?_)
    · intro token member
      rcases Qualifier.kind_of_mem_tokens shape.pairs member with is | is <;> rw [is] <;> rfl
    · intro token member
      rw [isHeld token member]
      rfl
  have isHolder : holder :: (tail ++ stop :: rest) = held ++ notable :: after := whole
  have found := Declarator.find?_of_ending start pieces ending isHolder shape.pairs preceding
    noColons
  have grouped : lead ++ (qualifiers.flatMap Qualifier.tokens ++ holder :: tail ++ stop :: rest) =
      lead ++ qualifiers.flatMap Qualifier.tokens ++ holder :: (tail ++ stop :: rest) := by simp
  rw [← grouped] at found
  refine ⟨_, tail, found, rfl, ?_, rfl, unstopped, rfl, ?_⟩
  · simp [Declarator.qualifiers]
  · simp only [Declarator.settled, Qualification.settled, ← preceding]
    simp

end DeclaratorShape

theorem nextDeclarator?_append {tail : List Token} (unstopped : Unstopped tail)
    (passed rest : List Token) :
    nextDeclarator? passed (tail ++ rest) = nextDeclarator? (tail.reverse ++ passed) rest := by
  induction tail generalizing passed with
  | nil => rfl
  | cons token others ih =>
    have noStop := unstopped token (by simp)
    simp only [TokenKind.IsStop, not_or] at noStop
    obtain ⟨noComma, noSemicolon, noCurly⟩ := noStop
    have further := ih (fun other member => unstopped other (by simp [member])) (token :: passed)
    rw [List.cons_append, nextDeclarator?]
    split
    · contradiction
    · contradiction
    · contradiction
    · rw [further]
      simp

theorem nextDeclarator?_cons {token : Token} (noStop : ¬ token.kind.IsStop)
    (passed rest : List Token) :
    nextDeclarator? passed (token :: rest) = nextDeclarator? (token :: passed) rest := by
  have single : Unstopped [token] := by
    intro other member
    rw [List.mem_singleton.1 member]
    exact noStop
  exact nextDeclarator?_append single passed rest

/-- A further declarator follows the first comma, unless another token ends the
list before. -/
theorem nextDeclarator?_eq_some_iff {passed ahead nearer rest : List Token} :
    nextDeclarator? passed ahead = some (nearer, rest) ↔
      ∃ between comma, Unstopped between ∧ comma.kind = .punct .comma ∧
        ahead = between ++ comma :: rest ∧ nearer = comma :: (between.reverse ++ passed) := by
  constructor
  · intro found
    induction ahead generalizing passed with
    | nil => cases found
    | cons token tail ih =>
      unfold nextDeclarator? at found
      split at found
      · rename_i isComma
        obtain ⟨rfl, rfl⟩ := Prod.mk.inj (Option.some.inj found)
        exact ⟨[], token, nofun, isComma, rfl, rfl⟩
      · cases found
      · cases found
      · rename_i noComma noSemicolon noCurly
        have noStop : ¬ token.kind.IsStop := by
          rintro (isComma | isSemicolon | isCurly)
          · exact noComma isComma
          · exact noSemicolon isSemicolon
          · exact noCurly isCurly
        obtain ⟨between, comma, unstopped, isComma, rfl, rfl⟩ := ih found
        exact ⟨token :: between, comma, unstopped.cons noStop, isComma, rfl, by simp⟩
  · rintro ⟨between, comma, unstopped, isComma, rfl, rfl⟩
    rw [nextDeclarator?_append unstopped, nextDeclarator?]
    simp [isComma]

theorem nextDeclarator?_of_end {stop : Token}
    (isEnd : stop.kind = .punct .semicolon ∨ stop.kind = .opening .curly)
    (passed rest : List Token) : nextDeclarator? passed (stop :: rest) = none := by
  rw [nextDeclarator?]
  rcases isEnd with is | is <;> simp [is]

namespace Declaration

variable {file : SourceFile} {entry : ScopeKind}

theorem typeEnd?_isSome {known : Option Token} {declarator : Declarator}
    (ends : known = none → TypeEnding declarator.qualification.typeEnd.kind) :
    ∃ typeEnd, typeEnd? known declarator = some typeEnd := by
  cases known with
  | some token => exact ⟨token, rfl⟩
  | none =>
    refine ⟨declarator.qualification.typeEnd, ?_⟩
    exact if_pos (endsType_iff.2 (ends rfl))

/-- The first declarator is found behind the type, and the type ends there. -/
theorem exists_first_of_shape {type own : List Token} {qualifiers : List Qualifier}
    {name stop : Token} (isType : IsType type)
    (shape : DeclaratorShape file entry qualifiers own name) (isStop : stop.kind.IsStop)
    (rest : List Token) :
    ∃ declarator typeEnd tail,
      Declarator.find? file entry []
          (type ++ (qualifiers.flatMap Qualifier.tokens ++ own ++ stop :: rest)) =
        some declarator ∧
      declarator.name = name ∧ typeEnd? none declarator = some typeEnd ∧
      Unstopped tail ∧ declarator.ahead = tail ++ stop :: rest := by
  obtain ⟨typeEnd, before, preceding, ending⟩ := isType.exists_typeEnd
  obtain ⟨declarator, tail, found, isDeclared, _, rfl, unstopped, ahead, _⟩ :=
    shape.exists_declarator isStop rest startsDeclarator_nil isType.passable preceding
      ending.ne_colons
  have ended : typeEnd? none declarator = some declarator.qualification.typeEnd :=
    if_pos (endsType_iff.2 ending)
  exact ⟨declarator, _, tail, found, isDeclared, ended, unstopped, ahead⟩

/-- A list of declarators is read to its end.  The type is checked on the first
declarator only, so the lead of a later one may be empty. -/
theorem readFrom_declaratorList {tokens kept : List Token}
    {names : List (Token × List Qualifier)}
    (list : DeclaratorList file entry tokens kept names) {known : Option Token}
    {lead passed before : List Token} {typeEnd : Token} (start : StartsDeclarator passed)
    (passable : Pieces TokenKind.isPassable lead)
    (preceding : lead.reverse ++ passed = typeEnd :: before)
    (noColons : typeEnd.kind ≠ .punct .doubleColon)
    (ends : known = none → TypeEnding typeEnd.kind) :
    ((readFrom file entry known passed (lead ++ tokens)).declared.map fun declared =>
        (declared.name, declared.qualifiers)) =
      (names.map fun named => (named.1, (named.2.map Qualifier.name).reverse)) ∧
    (readFrom file entry known passed (lead ++ tokens)).live =
      passed.reverse ++ (lead ++ kept) := by
  induction list generalizing known lead passed before typeEnd with
  | last rest shape isEnd =>
    obtain ⟨declarator, tail, found, rfl, qualifiers, rfl, unstopped, ahead, settled⟩ :=
      shape.exists_declarator (.inr isEnd) rest start passable preceding noColons
    obtain ⟨typeEnd, ended⟩ := typeEnd?_isSome ends
    have noNext : nextDeclarator? declarator.settled declarator.ahead = none := by
      rw [ahead, nextDeclarator?_append unstopped, nextDeclarator?_of_end isEnd]
    rw [readFrom_eq]
    simp only [found, ended, noNext]
    refine ⟨by simp [qualifiers], ?_⟩
    rw [Declarator.live, ahead, ← List.append_assoc, settled]
    simp
  | @more _ _ _ comma nextLead others kept names shape isComma isLead _ ih =>
    obtain ⟨declarator, tail, found, rfl, qualifiers, rfl, unstopped, ahead, settled⟩ :=
      shape.exists_declarator (.inl isComma) (nextLead ++ others) start passable preceding noColons
    obtain ⟨typeEnd, ended⟩ := typeEnd?_isSome ends
    have next : nextDeclarator? declarator.settled declarator.ahead =
        some (comma :: (tail.reverse ++ declarator.settled), nextLead ++ others) :=
      nextDeclarator?_eq_some_iff.2 ⟨tail, comma, unstopped, isComma, ahead, rfl⟩
    obtain ⟨nearest, _, nextPreceding, nextNoColons⟩ :=
      exists_nearest isLead.ends (tail.reverse ++ declarator.settled) isComma
    -- the type is known by now, so nothing is asked of the lead's last token
    have alreadyKnown : some typeEnd = none → TypeEnding nearest.kind := by
      intro unknown
      cases unknown
    obtain ⟨furtherNames, furtherLive⟩ := ih (startsDeclarator_cons _ isComma) isLead.passable
      nextPreceding nextNoColons alreadyKnown
    rw [readFrom_eq]
    simp only [found, ended, next]
    refine ⟨by simp [qualifiers, furtherNames], ?_⟩
    rw [furtherLive, List.reverse_cons, List.reverse_append, List.reverse_reverse, settled]
    simp

theorem read_declaratorList {type tokens kept : List Token}
    {names : List (Token × List Qualifier)} (isType : IsType type)
    (list : DeclaratorList file entry tokens kept names) :
    ((read file entry (type ++ tokens)).declared.map fun declared =>
        (declared.name, declared.qualifiers)) =
      (names.map fun named => (named.1, (named.2.map Qualifier.name).reverse)) ∧
    (read file entry (type ++ tokens)).live = type ++ kept := by
  obtain ⟨typeEnd, before, preceding, ending⟩ := isType.exists_typeEnd
  rw [read_of_starts (isType.starts_append tokens)]
  exact readFrom_declaratorList list startsDeclarator_nil isType.passable preceding
    ending.ne_colons fun _ => ending

end Declaration

namespace Chain

/-- A statement of the grammar is found to declare variables, offers exactly
its names in order, each one under the enclosing scopes and a scope for each of
its qualifiers, and keeps all tokens but the names of these qualifiers. -/
theorem scan_declaratorList {σ : Type} (sink : Sink σ) (file : SourceFile)
    (storage : Storage) (chain : Chain) (scopes : ScopeStack) (state : σ)
    {type tokens kept : List Token} {names : List (Token × List Qualifier)}
    (isType : IsType type)
    (list : DeclaratorList file scopes.currentKind tokens kept names)
    (live : chain.live = type ++ tokens) :
    (chain.scan sink file storage scopes state).found = true ∧
      ((chain.offers sink file storage scopes state).map fun offer =>
          (offer.anchor, offer.name, offer.scopes.outermostFirst)) =
        (names.map fun named =>
          (named.1, named.1.text, scopes.outermostFirst ++ named.2.map fun qualifier =>
            ScopeFrame.mk qualifier.name.text .inClass .unknown (some qualifier.name.id))) ∧
      (chain.scan sink file storage scopes state).chain.live = type ++ kept := by
  obtain ⟨declared, keptLive⟩ := Declaration.read_declaratorList isType list
  rw [← live] at declared keptLive
  refine ⟨?_, ?_, keptLive⟩
  · rw [found_scan, Bool.not_eq_true', List.isEmpty_eq_false_iff]
    intro nothing
    rw [nothing] at declared
    cases list <;> cases declared
  · have offered := congrArg (List.map fun (named : Token × List Token) =>
      (named.1, named.1.text,
        scopes.outermostFirst ++ named.2.reverse.map Scan.qualifierFrame)) declared
    simp only [List.map_map] at offered
    rw [offers_eq, List.map_map]
    refine Eq.trans (List.map_congr_left fun declared _ => ?_) (offered.trans
      (List.map_congr_left fun named _ => ?_))
    · simp [Scan.Context.offered, Scan.Context.offer, Scan.outermostFirst_enterQualifiers]
    · simp [Scan.qualifierFrame]

def sampleToken (id : Nat) (kind : TokenKind) (text : String) (nested : List Token) : Token :=
  ⟨id, kind, text, .ofLength 0 0, ⟨0, 0⟩, nested⟩

def sampleGroup (id : Nat) (inner : List Token) : Token :=
  sampleToken id (.group .round) "" (sampleToken (id - 4) (.opening .round) "(" [] :: inner ++
    [sampleToken (id - 1) (.closing .round) ")" []])

def sampleType : List Token :=
  [sampleToken 0 .identifier "Map" [], sampleToken 1 (.opening .angle) "<" [],
    sampleToken 2 (.keyword .kwInt) "int" [], sampleToken 3 (.closing .angle) ">" [],
    sampleToken 4 (.punct .star) "*" []]

def sampleOuter : Qualifier :=
  ⟨sampleToken 5 .identifier "Outer" [], sampleToken 6 (.punct .doubleColon) "::" []⟩

def sampleFirst : Token := sampleToken 7 .identifier "a" []

def sampleComma (id : Nat) : Token := sampleToken id (.punct .comma) "," []

def sampleAmpersand : Token := sampleToken 9 (.punct .ampersand) "&" []

def sampleSecond : Token := sampleToken 12 .identifier "f" []

def samplePointer : Token := sampleGroup 14 [sampleToken 11 (.punct .star) "*" [], sampleSecond]

def sampleParameters : Token := sampleGroup 18 [sampleToken 16 (.keyword .kwInt) "int" []]

def sampleThird : Token := sampleToken 20 .identifier "b" []

def sampleArguments : Token := sampleGroup 25 [sampleToken 22 .number "7" []]

def sampleList : List Token :=
  [sampleOuter.name, sampleOuter.colons, sampleFirst, sampleComma 8, sampleAmpersand,
    samplePointer, sampleParameters, sampleComma 19, sampleThird, sampleArguments,
    sampleToken 26 (.punct .semicolon) ";" []]

def sampleKept : List Token := sampleList.tail

def sampleNames : List (Token × List Qualifier) :=
  [(sampleFirst, [sampleOuter]), (sampleSecond, []), (sampleThird, [])]

def sampleChain : Chain := ⟨#[], sampleType ++ sampleList⟩

theorem isType_sampleType : IsType sampleType where
  pieces := by
    refine .token rfl (@Pieces.run _ ((sampleType.drop 1).take 3) _ ?_ (.token rfl .nil))
    exact AngleRun.isRun_cons_iff.2 ⟨rfl, rfl⟩
  ends := by simp [sampleType, sampleToken]
  starts := ⟨sampleToken 0 .identifier "Map" [], rfl, .inl rfl⟩

theorem declaratorList_sampleList :
    DeclaratorList ⟨.cpp, false⟩ .inNamespace sampleList sampleKept sampleNames := by
  have first : DeclaratorShape ⟨.cpp, false⟩ .inNamespace [sampleOuter] [sampleFirst]
      sampleFirst := by
    refine .bare (fun qualifier member => ?_) rfl
    obtain rfl := List.mem_singleton.1 member
    exact ⟨rfl, rfl⟩
  have second : DeclaratorShape ⟨.cpp, false⟩ .inNamespace []
      [samplePointer, sampleParameters] sampleSecond :=
    .pointer rfl rfl rfl (by decide +kernel) (by simp [Unstopped])
  have third : DeclaratorShape ⟨.cpp, false⟩ .inNamespace []
      [sampleThird, sampleArguments] sampleThird :=
    .arguments (by simp) rfl rfl rfl (by simp) (by simp [Unstopped]) rfl (.inl rfl)
  have ampersand : IsLead [sampleAmpersand] :=
    ⟨.token rfl .nil, by simp [sampleAmpersand, sampleToken]⟩
  exact .more first rfl ampersand (.more second rfl ⟨.nil, nofun⟩ (.last [] third (.inl rfl)))

theorem scan_sampleList :
    IsType sampleType ∧
      DeclaratorList ⟨.cpp, false⟩ .inNamespace sampleList sampleKept sampleNames ∧
      (sampleChain.scan Collector.sink ⟨.cpp, false⟩ ⟨false, false⟩ .empty
        (.empty TagKind.all)).found = true ∧
      ((sampleChain.offers Collector.sink ⟨.cpp, false⟩ ⟨false, false⟩ .empty
          (.empty TagKind.all)).map fun offer =>
            (offer.anchor, offer.name, offer.scopes.outermostFirst)) =
        [(sampleFirst, "a", [⟨"Outer", .inClass, .unknown, some 5⟩]), (sampleSecond, "f", []),
          (sampleThird, "b", [])] ∧
      (sampleChain.scan Collector.sink ⟨.cpp, false⟩ ⟨false, false⟩ .empty
        (.empty TagKind.all)).chain.live = sampleType ++ sampleKept :=
  ⟨isType_sampleType, declaratorList_sampleList,
    scan_declaratorList Collector.sink ⟨.cpp, false⟩ ⟨false, false⟩ sampleChain .empty
      (.empty TagKind.all) isType_sampleType declaratorList_sampleList rfl⟩

end Chain

end DeclScan
