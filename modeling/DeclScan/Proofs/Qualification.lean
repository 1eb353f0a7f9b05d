import DeclScan.Declarator.Qualification

/-!
# Exactly the qualifiers before a name

The tokens before a name are split in one way only: pairs of an identifier and
colons as long as there are any, and before these a token that is no pair of
colons.  `qualification?_eq_some_iff` says that every such split is found.
-/

set_option autoImplicit false

namespace DeclScan

namespace Qualifier

def tokens (qualifier : Qualifier) : List Token := [qualifier.name, qualifier.colons]

def IsPair (qualifier : Qualifier) : Prop :=
  qualifier.name.kind = .identifier ∧ qualifier.colons.kind = .punct .doubleColon

theorem reverse_flatMap_tokens (qualifiers : List Qualifier) :
    (qualifiers.flatMap fun qualifier => [qualifier.colons, qualifier.name]).reverse =
      qualifiers.reverse.flatMap tokens := by
  rw [List.reverse_flatMap]
  rfl

theorem length_flatMap_tokens (qualifiers : List Qualifier) :
    (qualifiers.flatMap tokens).length = 2 * qualifiers.length := by
  induction qualifiers with
  | nil => rfl
  | cons qualifier rest ih =>
    simp only [List.flatMap_cons, List.length_append, List.length_cons, ih, tokens, List.length_nil]
    omega

theorem kind_of_mem_tokens {qualifiers : List Qualifier}
    (pairs : ∀ qualifier ∈ qualifiers, qualifier.IsPair) {token : Token}
    (member : token ∈ qualifiers.flatMap tokens) :
    token.kind = .identifier ∨ token.kind = .punct .doubleColon := by
  obtain ⟨qualifier, isQualifier, inside⟩ := List.mem_flatMap.1 member
  obtain ⟨isName, isColons⟩ := pairs qualifier isQualifier
  simp only [tokens, List.mem_cons, List.not_mem_nil, or_false] at inside
  rcases inside with rfl | rfl
  · exact .inl isName
  · exact .inr isColons

end Qualifier

namespace Qualification

theorem tokens_eq (qualification : Qualification) :
    qualification.tokens =
      (qualification.qualifiers.reverse.flatMap Qualifier.tokens).reverse ++
        qualification.typeEnd :: qualification.before := by
  rw [← Qualifier.reverse_flatMap_tokens, List.reverse_reverse]
  rfl

theorem length_tokens (qualification : Qualification) :
    qualification.tokens.length =
      2 * qualification.qualifiers.length + (qualification.before.length + 1) := by
  rw [tokens_eq, List.length_append, List.length_reverse, Qualifier.length_flatMap_tokens,
    List.length_reverse, List.length_cons]

end Qualification

theorem qualification?_of_typeEnd {typeEnd : Token} (before : List Token)
    (noColons : typeEnd.kind ≠ .punct .doubleColon) :
    qualification? (typeEnd :: before) = some ⟨[], typeEnd, before⟩ := by
  cases before with
  | nil => rw [qualification?, if_neg noColons]
  | cons next others => rw [qualification?, if_neg noColons]

theorem qualification?_tokens {qualification : Qualification}
    (pairs : ∀ qualifier ∈ qualification.qualifiers, qualifier.IsPair)
    (noColons : qualification.typeEnd.kind ≠ .punct .doubleColon) :
    qualification? qualification.tokens = some qualification := by
  obtain ⟨qualifiers, typeEnd, before⟩ := qualification
  induction qualifiers with
  | nil => exact qualification?_of_typeEnd before noColons
  | cons nearest others ih =>
    obtain ⟨isName, isColons⟩ := pairs nearest (by simp)
    have outer := ih (fun qualifier member => pairs qualifier (by simp [member])) noColons
    simp only [Qualification.tokens, List.flatMap_cons, List.cons_append, List.nil_append]
      at outer ⊢
    rw [qualification?, if_pos isColons, if_pos isName, outer]
    rfl

theorem qualification?_of_pairs {qualifiers : List Qualifier} {typeEnd : Token}
    (before : List Token) (pairs : ∀ qualifier ∈ qualifiers, qualifier.IsPair)
    (noColons : typeEnd.kind ≠ .punct .doubleColon) :
    qualification? ((qualifiers.flatMap Qualifier.tokens).reverse ++ typeEnd :: before) =
      some ⟨qualifiers.reverse, typeEnd, before⟩ := by
  have reversed : ∀ qualifier ∈ qualifiers.reverse, qualifier.IsPair := by
    intro qualifier member
    exact pairs qualifier (List.mem_reverse.1 member)
  have found : qualification? (Qualification.tokens ⟨qualifiers.reverse, typeEnd, before⟩) =
      some ⟨qualifiers.reverse, typeEnd, before⟩ := qualification?_tokens reversed noColons
  rw [Qualification.tokens_eq, List.reverse_reverse] at found
  exact found

theorem qualification?_eq_some_iff {before : List Token} {qualification : Qualification} :
    qualification? before = some qualification ↔
      before = qualification.tokens ∧
        (∀ qualifier ∈ qualification.qualifiers, qualifier.IsPair) ∧
        qualification.typeEnd.kind ≠ .punct .doubleColon := by
  constructor
  · intro found
    exact ⟨(tokens_of_qualification? found).symm, kinds_of_qualification? found,
      typeEnd_of_qualification? found⟩
  · rintro ⟨rfl, pairs, noColons⟩
    exact qualification?_tokens pairs noColons

end DeclScan
