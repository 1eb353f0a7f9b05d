import DeclScan.Token

/-!
# Searching from the back

The search for a nested token comes across the tokens from the right to the left
and goes into parenthesis groups.  Tokens can be spread out so that what stands in
parentheses comes before its group and other groups stay closed; then the search
finds the last one that is wanted (`Token.lastNested?_eq_some_iff`), and it finds
none only if none is wanted (`Token.lastNested?_eq_none_iff`).
-/

set_option autoImplicit false

namespace DeclScan

inductive Token.InParentheses : Token → List Token → Prop where
  | here {token : Token} {tokens : List Token} : token ∈ tokens → InParentheses token tokens
  | inside {token group : Token} {tokens : List Token} : group ∈ tokens →
      group.kind = .group .round → InParentheses token group.nested → InParentheses token tokens

namespace Token

theorem InParentheses.cons {token other : Token} {rest : List Token}
    (within : InParentheses token rest) : InParentheses token (other :: rest) := by
  cases within with
  | here member => exact .here (List.mem_cons_of_mem _ member)
  | inside member isGroup within => exact .inside (List.mem_cons_of_mem _ member) isGroup within

mutual

/-- The tokens and all that stands in parenthesis groups among them, each group
behind what is nested in it. -/
def spread : List Token → List Token
  | [] => []
  | token :: rest =>
    if token.kind = .group .round then token.spreadInside ++ token :: spread rest
    else token :: spread rest

def spreadInside : Token → List Token
  | ⟨_, _, _, _, _, nested⟩ => spread nested

end

theorem spreadInside_eq (token : Token) : token.spreadInside = spread token.nested := by
  cases token
  rfl

theorem spread_group {group : Token} (isGroup : group.kind = .group .round) :
    spread [group] = spread group.nested ++ [group] := by
  rw [spread, if_pos isGroup, spreadInside_eq, spread]

theorem spread_single {token : Token} (noGroup : token.kind ≠ .group .round) :
    spread [token] = [token] := by
  rw [spread, if_neg noGroup, spread]

theorem spread_append (front back : List Token) :
    spread (front ++ back) = spread front ++ spread back := by
  induction front with
  | nil => rw [spread, List.nil_append, List.nil_append]
  | cons token rest ih =>
    rw [List.cons_append, spread, spread]
    split
    · rw [ih, List.append_assoc, List.cons_append]
    · rw [ih, List.cons_append]

theorem spread_cons (token : Token) (rest : List Token) :
    spread (token :: rest) = spread [token] ++ spread rest := spread_append [token] rest

theorem mem_spread_iff {token : Token} {tokens : List Token} :
    token ∈ spread tokens ↔ token.InParentheses tokens := by
  constructor
  · intro member
    induction tokens using nested_induction with
    | nil => cases member
    | cons first rest inside ih =>
      rw [spread_cons, List.mem_append] at member
      rcases member with atFirst | inRest
      · by_cases isGroup : first.kind = .group .round
        · rw [spread_group isGroup, List.mem_append] at atFirst
          rcases atFirst with nested | itself
          · exact .inside List.mem_cons_self isGroup (inside nested)
          · exact .here (List.mem_singleton.1 itself ▸ List.mem_cons_self)
        · rw [spread_single isGroup] at atFirst
          exact .here (List.mem_singleton.1 atFirst ▸ List.mem_cons_self)
      · exact (ih inRest).cons
  · intro within
    induction within with
    | @here tokens member =>
      obtain ⟨front, back, rfl⟩ := List.append_of_mem member
      rw [spread_append, spread_cons]
      by_cases isGroup : token.kind = .group .round
      · simp [spread_group isGroup]
      · simp [spread_single isGroup]
    | @inside group tokens member isGroup _ ih =>
      obtain ⟨front, back, rfl⟩ := List.append_of_mem member
      rw [spread_append, spread_cons, spread_group isGroup]
      simp [ih]

section Search

variable {wanted : TokenKind → Bool}

theorem lastInside?_eq (group : Token) :
    group.lastInside? wanted = lastNested? wanted group.nested := by
  cases group
  rw [lastInside?]

theorem lastNested?_singleton (token : Token) :
    lastNested? wanted [token] =
      if wanted token.kind then some token
      else if token.kind = .group .round then lastNested? wanted token.nested
      else none := by
  rw [lastNested?, lastNested?, lastInside?_eq]

theorem lastNested?_cons (token : Token) (rest : List Token) :
    lastNested? wanted (token :: rest) =
      (lastNested? wanted rest).or (lastNested? wanted [token]) := by
  rw [lastNested?_singleton, lastNested?, lastInside?_eq]
  cases lastNested? wanted rest <;> rfl

/-- Only parenthesis groups are gone into. -/
theorem lastNested?_of_unwanted {token : Token} (unwanted : wanted token.kind = false)
    (noGroup : token.kind ≠ .group .round) : lastNested? wanted [token] = none := by
  rw [lastNested?_singleton, unwanted, if_neg Bool.false_ne_true, if_neg noGroup]

theorem lastNested?_of_group {group : Token} (unwanted : wanted (.group .round) = false)
    (isGroup : group.kind = .group .round) :
    lastNested? wanted [group] = lastNested? wanted group.nested := by
  rw [lastNested?_singleton, isGroup, unwanted, if_neg Bool.false_ne_true, if_pos rfl]

/-- The search finds the last of the spread tokens that is wanted. -/
theorem lastNested?_eq_find? (tokens : List Token) :
    lastNested? wanted tokens =
      (spread tokens).reverse.find? fun token => wanted token.kind := by
  induction tokens using nested_induction with
  | nil => rfl
  | cons token rest inside ih =>
    rw [spread_cons, List.reverse_append, List.find?_append, lastNested?_cons, ih,
      lastNested?_singleton]
    congr 1
    by_cases isGroup : token.kind = .group .round
    · rw [spread_group isGroup, List.reverse_append, List.reverse_singleton,
        List.singleton_append, List.find?_cons, if_pos isGroup, inside]
      cases wanted token.kind <;> rfl
    · rw [spread_single isGroup, List.reverse_singleton, List.find?_singleton, if_neg isGroup]

theorem lastNested?_append (front back : List Token) :
    lastNested? wanted (front ++ back) =
      (lastNested? wanted back).or (lastNested? wanted front) := by
  rw [lastNested?_eq_find?, lastNested?_eq_find?, lastNested?_eq_find?, spread_append,
    List.reverse_append, List.find?_append]

theorem lastNested?_eq_some_iff {tokens : List Token} {found : Token} :
    lastNested? wanted tokens = some found ↔
      ∃ front back, spread tokens = front ++ found :: back ∧ wanted found.kind = true ∧
        ∀ token ∈ back, wanted token.kind = false := by
  rw [lastNested?_eq_find?, List.find?_eq_some_iff_append]
  constructor
  · rintro ⟨isWanted, behind, before, split, unwanted⟩
    refine ⟨before.reverse, behind.reverse, ?_, isWanted, ?_⟩
    · rw [← List.reverse_reverse (spread tokens), split]
      simp
    · intro token member
      simpa using unwanted token (List.mem_reverse.1 member)
  · rintro ⟨front, back, split, isWanted, unwanted⟩
    refine ⟨isWanted, back.reverse, front.reverse, ?_, ?_⟩
    · rw [split]
      simp
    · intro token member
      simpa using unwanted token (List.mem_reverse.1 member)

theorem lastNested?_eq_none_iff {tokens : List Token} :
    lastNested? wanted tokens = none ↔ ∀ token ∈ spread tokens, wanted token.kind = false := by
  rw [lastNested?_eq_find?, List.find?_eq_none]
  simp

theorem wanted_of_lastNested? (tokens : List Token) {found : Token}
    (isFound : lastNested? wanted tokens = some found) :
    wanted found.kind = true ∧ found.InParentheses tokens := by
  obtain ⟨front, back, split, isWanted, _⟩ := lastNested?_eq_some_iff.1 isFound
  exact ⟨isWanted, mem_spread_iff.1 (by simp [split])⟩

end Search

end Token

end DeclScan
