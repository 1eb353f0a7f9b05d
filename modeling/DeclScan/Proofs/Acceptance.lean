import DeclScan.Proofs.Offers

/-!
# Which statements declare something

A statement declares something exactly if it starts with a word and the tokens
before its first notable token are a type, the qualifiers of a name, and the
name unless it is nested.  The main statement is `Chain.found_scan_iff`.
-/

set_option autoImplicit false

namespace DeclScan

def TypeEnding (kind : TokenKind) : Prop :=
  kind = .identifier ∨ (∃ keyword, kind = .keyword keyword) ∨ kind = .closing .angle ∨
    kind = .punct .star ∨ kind = .punct .ampersand

theorem endsType_iff {kind : TokenKind} :
    Declaration.endsType kind = true ↔ TypeEnding kind := by
  cases kind with
  | closing bracket => cases bracket <;> simp [Declaration.endsType, TypeEnding]
  | punct punctuator => cases punctuator <;> simp [Declaration.endsType, TypeEnding]
  | _ => simp [Declaration.endsType, TypeEnding]

theorem TypeEnding.ne_colons {kind : TokenKind} (ending : TypeEnding kind) :
    kind ≠ .punct .doubleColon := by
  intro isColons
  rw [isColons] at ending
  simp [TypeEnding] at ending

theorem TokenKind.isWord_iff {kind : TokenKind} :
    kind.isWord = true ↔ kind = .identifier ∨ ∃ keyword, kind = .keyword keyword := by
  cases kind <;> simp [TokenKind.isWord, TokenKind.isIdentifier, TokenKind.isKeyword]

/-- A statement that starts with a word and goes on with a type, qualifiers and
a name up to the first notable token, which lies outside of all angle runs. -/
def StartsDeclaration (file : SourceFile) (entry : ScopeKind) (live : List Token) : Prop :=
  (∃ first ∈ live.head?, first.kind = .identifier ∨ ∃ keyword, first.kind = .keyword keyword) ∧
    ∃ (type : List Token) (typeEnd : Token) (qualifiers : List Qualifier)
      (held : List Token) (notable : Token) (after : List Token) (name : Token),
      live = type ++ [typeEnd] ++ qualifiers.flatMap Qualifier.tokens ++ held ++
        notable :: after ∧
      Pieces TokenKind.isPassable
        (type ++ [typeEnd] ++ qualifiers.flatMap Qualifier.tokens ++ held) ∧
      TypeEnding typeEnd.kind ∧
      (∀ qualifier ∈ qualifiers, qualifier.IsPair) ∧
      Ending file entry held notable after name

namespace Declaration

variable {file : SourceFile} {entry : ScopeKind} {live : List Token}

theorem readFrom_declares_iff :
    (readFrom file entry none [] live).declared ≠ [] ↔
      ∃ declarator, Declarator.find? file entry [] live = some declarator ∧
        TypeEnding declarator.qualification.typeEnd.kind := by
  rw [readFrom_eq]
  cases found : Declarator.find? file entry [] live with
  | none => simp
  | some declarator =>
    by_cases ends : endsType declarator.qualification.typeEnd.kind = true
    · have ended : typeEnd? none declarator = some declarator.qualification.typeEnd :=
        if_pos ends
      simp only [ended, Option.some.injEq, exists_eq_left', ← endsType_iff, ends, iff_true]
      cases nextDeclarator? declarator.settled declarator.ahead <;> simp
    · have ended : typeEnd? none declarator = none := if_neg ends
      simp [ended, ← endsType_iff, ends]

theorem read_of_starts (starts : ∃ first ∈ live.head?, first.kind.isWord = true) :
    read file entry live = readFrom file entry none [] live := by
  obtain ⟨first, isFirst, isWord⟩ := starts
  cases live with
  | nil => cases isFirst
  | cons head others =>
    obtain rfl : head = first := by simpa using isFirst
    exact if_pos isWord

theorem read_declares_iff :
    (read file entry live).declared ≠ [] ↔
      (∃ first ∈ live.head?, first.kind.isWord = true) ∧
        (readFrom file entry none [] live).declared ≠ [] := by
  cases live with
  | nil => simp [read]
  | cons first others =>
    by_cases isWord : first.kind.isWord = true
    · simp [read, isWord]
    · simp [read, isWord]

theorem reverse_eq_tokens_iff {lead : List Token} {qualification : Qualification} :
    lead.reverse = qualification.tokens ↔
      lead = qualification.before.reverse ++ [qualification.typeEnd] ++
        qualification.qualifiers.reverse.flatMap Qualifier.tokens := by
  rw [Qualification.tokens_eq, ← List.reverse_inj]
  simp

theorem startsDeclaration_of_find? {declarator : Declarator}
    (starts : ∃ first ∈ live.head?,
      first.kind = .identifier ∨ ∃ keyword, first.kind = .keyword keyword)
    (found : Declarator.find? file entry [] live = some declarator)
    (ends : TypeEnding declarator.qualification.typeEnd.kind) :
    StartsDeclaration file entry live := by
  obtain ⟨lead, held, notable, after, whole, pieces, ending, _, isBefore, qualified⟩ :=
    (Declarator.find?_iff_ending startsDeclarator_nil).1 found
  rw [isBefore, List.append_nil] at qualified
  obtain ⟨tokens, pairs, _⟩ := qualification?_eq_some_iff.1 qualified
  obtain rfl := reverse_eq_tokens_iff.1 tokens
  refine ⟨starts, _, _, _, held, notable, after, declarator.name, whole, pieces, ends, ?_, ending⟩
  intro qualifier member
  exact pairs qualifier (List.mem_reverse.1 member)

theorem exists_find?_of_startsDeclaration (starts : StartsDeclaration file entry live) :
    ∃ declarator, Declarator.find? file entry [] live = some declarator ∧
      TypeEnding declarator.qualification.typeEnd.kind := by
  obtain ⟨_, type, typeEnd, qualifiers, held, notable, after, name, whole, pieces, ends, pairs,
    ending⟩ := starts
  have preceding : (type ++ [typeEnd]).reverse ++ [] = typeEnd :: type.reverse := by simp
  obtain ⟨declarator, found, rfl⟩ := Declarator.exists_find?_of_ending startsDeclarator_nil pieces
    ending pairs preceding ends.ne_colons
  rw [← whole] at found
  exact ⟨declarator, found, ends⟩

theorem read_declares_iff_startsDeclaration :
    (read file entry live).declared ≠ [] ↔ StartsDeclaration file entry live := by
  rw [read_declares_iff, readFrom_declares_iff]
  simp only [TokenKind.isWord_iff]
  constructor
  · intro declares
    obtain ⟨starts, declarator, found, ends⟩ := declares
    exact startsDeclaration_of_find? starts found ends
  · intro starts
    exact ⟨starts.1, exists_find?_of_startsDeclaration starts⟩

end Declaration

namespace Chain

/-- A scan finds a variable exactly where the live tokens start a declaration,
whatever the storage keywords and the sink are. -/
theorem found_scan_iff {σ : Type} (sink : Sink σ) (file : SourceFile) (storage : Storage)
    (chain : Chain) (scopes : ScopeStack) (state : σ) :
    (chain.scan sink file storage scopes state).found = true ↔
      StartsDeclaration file scopes.currentKind chain.live := by
  rw [found_scan, Bool.not_eq_true', ← Declaration.read_declares_iff_startsDeclaration,
    List.isEmpty_eq_false_iff]

end Chain

end DeclScan
