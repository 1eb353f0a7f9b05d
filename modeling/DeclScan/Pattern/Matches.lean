import DeclScan.Pattern

/-!
# What a pattern matches

`Matches` says directly which sequences a pattern stands for.  Derivatives
agree with it, and the longest match is the longest front of a text that the
pattern matches.
-/

set_option autoImplicit false

namespace DeclScan

namespace CharSet

theorem contains_ofChars_iff {chars : List Char} {char : Char} :
    (ofChars chars).contains char = true ↔ char ∈ chars := by
  simp only [contains, ofChars, List.any_map, Bool.bne_false, List.any_eq_true]
  constructor
  · rintro ⟨bound, member, within⟩
    simp only [Function.comp_apply, Bool.and_eq_true, decide_eq_true_eq] at within
    exact Char.le_antisymm within.1 within.2 ▸ member
  · intro member
    exact ⟨char, member, by simp⟩

theorem contains_single_iff {only char : Char} :
    (single only).contains char = true ↔ char = only := by
  have same : single only = ofChars [only] := rfl
  rw [same, contains_ofChars_iff, List.mem_singleton]

theorem contains_except_iff {chars : List Char} {char : Char} :
    (except chars).contains char = true ↔ char ∉ chars := by
  rw [← contains_ofChars_iff]
  simp only [contains, except, ofChars, Bool.bne_true, Bool.bne_false, Bool.not_eq_true',
    Bool.not_eq_true]

end CharSet

end DeclScan

namespace DeclScan.Pattern

inductive Matches : Pattern → List Char → Prop where
  | nothing : Matches nothing []
  | oneOf {set : CharSet} {char : Char} (member : set.contains char = true) :
      Matches (oneOf set) [char]
  | seq {first second : Pattern} {front back : List Char}
      (frontMatches : Matches first front) (backMatches : Matches second back) :
      Matches (seq first second) (front ++ back)
  | left {left right : Pattern} {text : List Char} (leftMatches : Matches left text) :
      Matches (either left right) text
  | right {left right : Pattern} {text : List Char} (rightMatches : Matches right text) :
      Matches (either left right) text
  | manyNone {body : Pattern} : Matches (many body) []
  | manyMore {body : Pattern} {front back : List Char}
      (frontMatches : Matches body front) (backMatches : Matches (many body) back) :
      Matches (many body) (front ++ back)

theorem not_matches_never {text : List Char} : ¬ Matches never text := nofun

theorem matches_nothing_iff {text : List Char} : Matches nothing text ↔ text = [] := by
  constructor
  · intro matched
    cases matched
    rfl
  · rintro rfl
    exact .nothing

theorem matches_oneOf_iff {set : CharSet} {text : List Char} :
    Matches (oneOf set) text ↔ ∃ char, set.contains char = true ∧ text = [char] := by
  constructor
  · intro matched
    cases matched with
    | oneOf member => exact ⟨_, member, rfl⟩
  · rintro ⟨char, member, rfl⟩
    exact .oneOf member

theorem matches_seq_iff {first second : Pattern} {text : List Char} :
    Matches (seq first second) text ↔
      ∃ front back, text = front ++ back ∧ Matches first front ∧ Matches second back := by
  constructor
  · intro matched
    cases matched with
    | seq frontMatches backMatches => exact ⟨_, _, rfl, frontMatches, backMatches⟩
  · rintro ⟨front, back, rfl, frontMatches, backMatches⟩
    exact .seq frontMatches backMatches

theorem matches_either_iff {left right : Pattern} {text : List Char} :
    Matches (either left right) text ↔ Matches left text ∨ Matches right text := by
  constructor
  · intro matched
    cases matched with
    | left leftMatches => exact .inl leftMatches
    | right rightMatches => exact .inr rightMatches
  · rintro (leftMatches | rightMatches)
    · exact .left leftMatches
    · exact .right rightMatches

theorem matches_sequence_iff {first second : Pattern} {text : List Char} :
    Matches (sequence first second) text ↔ Matches (seq first second) text := by
  unfold sequence
  split
  · constructor
    · exact nofun
    · intro matched
      obtain ⟨_, _, _, impossible, _⟩ := matches_seq_iff.1 matched
      exact absurd impossible not_matches_never
  · rw [matches_seq_iff]
    constructor
    · exact fun matched => ⟨[], text, rfl, .nothing, matched⟩
    · rintro ⟨front, back, rfl, frontMatches, backMatches⟩
      obtain rfl := matches_nothing_iff.1 frontMatches
      exact backMatches
  · exact Iff.rfl

theorem matches_of_offers {pattern alternative : Pattern} {text : List Char}
    (offered : pattern.offers alternative = true) (matched : Matches alternative text) :
    Matches pattern text := by
  induction pattern with
  | either left right leftIH rightIH =>
    rcases Bool.or_eq_true_iff.1 offered with onLeft | onRight
    · exact .left (leftIH onLeft)
    · exact .right (rightIH onRight)
  | _ => exact of_decide_eq_true offered ▸ matched

theorem matches_choice_iff {left right : Pattern} {text : List Char} :
    Matches (choice left right) text ↔ Matches left text ∨ Matches right text := by
  unfold choice
  split
  · simp [not_matches_never]
  · simp [not_matches_never]
  · split
    · rename_i offered
      exact ⟨.inl, fun matched => matched.elim id (matches_of_offers offered)⟩
    · exact matches_either_iff

theorem matches_chars_iff {chars text : List Char} : Matches (Pattern.chars chars) text ↔ text = chars := by
  have single {char : Char} {text : List Char} :
      Matches (oneOf (.single char)) text ↔ text = [char] := by
    simp only [matches_oneOf_iff, CharSet.contains_single_iff]
    constructor
    · rintro ⟨_, rfl, rfl⟩
      rfl
    · rintro rfl
      exact ⟨char, rfl, rfl⟩
  induction chars generalizing text with
  | nil => exact matches_nothing_iff
  | cons char rest ih =>
    cases rest with
    | nil => exact single
    | cons next rest =>
      rw [Pattern.chars, matches_seq_iff]
      · simp only [single, ih]
        constructor
        · rintro ⟨_, _, rfl, rfl, rfl⟩
          rfl
        · rintro rfl
          exact ⟨[char], next :: rest, rfl, rfl, rfl⟩
      · exact nofun

theorem matches_exactly_iff {exact : String} {text : List Char} :
    Matches (exactly exact) text ↔ text = exact.toList :=
  matches_chars_iff

theorem matches_optional_iff {pattern : Pattern} {text : List Char} :
    Matches (optional pattern) text ↔ Matches pattern text ∨ text = [] := by
  rw [optional, matches_either_iff, matches_nothing_iff]

theorem matches_inOrder_cons_iff {pattern : Pattern} {patterns : List Pattern}
    {text : List Char} :
    Matches (inOrder (pattern :: patterns)) text ↔
      ∃ front back, text = front ++ back ∧ Matches pattern front ∧
        Matches (inOrder patterns) back := by
  cases patterns with
  | nil => simp [inOrder, matches_nothing_iff]
  | cons next patterns => exact matches_seq_iff

theorem matches_anyOf_iff {patterns : List Pattern} {text : List Char} :
    Matches (anyOf patterns) text ↔ ∃ pattern ∈ patterns, Matches pattern text := by
  induction patterns with
  | nil => simp [anyOf, not_matches_never]
  | cons pattern patterns ih =>
    simp only [List.mem_cons, exists_eq_or_imp, ← ih]
    cases patterns with
    | nil => simp [anyOf, not_matches_never]
    | cons next patterns => exact matches_either_iff

/-- A repetition matches what is put together from matches of its body. -/
theorem matches_many_iff {body : Pattern} {text : List Char} :
    Matches (many body) text ↔
      ∃ rounds : List (List Char), text = rounds.flatten ∧ ∀ round ∈ rounds, Matches body round := by
  constructor
  · intro matched
    generalize wholeEq : many body = whole at matched
    induction matched with
    | manyNone => exact ⟨[], rfl, nofun⟩
    | manyMore frontMatches _ _ backIH =>
      obtain rfl := Pattern.many.inj wholeEq
      obtain ⟨rounds, rfl, matched⟩ := backIH rfl
      exact ⟨_ :: rounds, rfl, List.forall_mem_cons.2 ⟨frontMatches, matched⟩⟩
    | _ => cases wholeEq
  · rintro ⟨rounds, rfl, matched⟩
    induction rounds with
    | nil => exact .manyNone
    | cons round rounds ih =>
      obtain ⟨first, others⟩ := List.forall_mem_cons.1 matched
      exact .manyMore first (ih others)

theorem matches_many_oneOf_iff {set : CharSet} {text : List Char} :
    Matches (many (oneOf set)) text ↔ ∀ char ∈ text, set.contains char = true := by
  rw [matches_many_iff]
  constructor
  · rintro ⟨rounds, rfl, matched⟩ char member
    obtain ⟨round, isRound, inRound⟩ := List.mem_flatten.1 member
    obtain ⟨_, contained, rfl⟩ := matches_oneOf_iff.1 (matched round isRound)
    exact List.mem_singleton.1 inRound ▸ contained
  · intro contained
    refine ⟨text.map fun char => [char], ?_, ?_⟩
    · rw [← List.flatMap_def, List.flatMap_singleton']
    · intro round isRound
      obtain ⟨char, member, rfl⟩ := List.mem_map.1 isRound
      exact .oneOf (contained char member)

theorem matches_oneOrMore_oneOf_iff {set : CharSet} {text : List Char} :
    Matches (oneOrMore (oneOf set)) text ↔
      text ≠ [] ∧ ∀ char ∈ text, set.contains char = true := by
  simp only [oneOrMore, matches_seq_iff, matches_oneOf_iff, matches_many_oneOf_iff]
  constructor
  · rintro ⟨_, back, rfl, ⟨char, contained, rfl⟩, others⟩
    exact ⟨List.cons_ne_nil char back, List.forall_mem_cons.2 ⟨contained, others⟩⟩
  · rintro ⟨some, contained⟩
    cases text with
    | nil => exact absurd rfl some
    | cons char rest =>
      obtain ⟨first, others⟩ := List.forall_mem_cons.1 contained
      exact ⟨[char], rest, rfl, ⟨char, first, rfl⟩, others⟩

/-! ## Derivatives -/

theorem matchesNothing_iff {pattern : Pattern} :
    pattern.matchesNothing = true ↔ Matches pattern [] := by
  induction pattern with
  | never => simp [matchesNothing, not_matches_never]
  | nothing => simp [matchesNothing, matches_nothing_iff]
  | oneOf set => simp [matchesNothing, matches_oneOf_iff]
  | seq first second firstIH secondIH =>
    simp [matchesNothing, matches_seq_iff, firstIH, secondIH, and_assoc]
  | either left right leftIH rightIH =>
    simp [matchesNothing, matches_either_iff, leftIH, rightIH]
  | many body _ => simp [matchesNothing, Matches.manyNone]

theorem matches_many_cons {body : Pattern} {char : Char} {rest : List Char}
    (matched : Matches (many body) (char :: rest)) :
    ∃ front back, rest = front ++ back ∧ Matches body (char :: front) ∧
      Matches (many body) back := by
  generalize wholeEq : many body = whole at matched
  generalize textEq : char :: rest = text at matched
  induction matched with
  | manyMore frontMatches backMatches _ backIH =>
    obtain rfl := Pattern.many.inj wholeEq
    rename_i front back _
    cases front with
    | nil => exact backIH rfl textEq
    | cons head tail =>
      obtain ⟨rfl, rfl⟩ := List.cons.inj textEq
      exact ⟨tail, back, rfl, frontMatches, backMatches⟩
  | manyNone => cases textEq
  | _ => cases wholeEq

theorem matches_derivative_iff {pattern : Pattern} {char : Char} {rest : List Char} :
    Matches (pattern.derivative char) rest ↔ Matches pattern (char :: rest) := by
  induction pattern generalizing rest with
  | never => simp [derivative, not_matches_never]
  | nothing => simp [derivative, not_matches_never, matches_nothing_iff]
  | oneOf set =>
    simp only [derivative, matches_oneOf_iff, List.cons.injEq]
    split
    · rename_i member
      rw [matches_nothing_iff]
      exact ⟨fun empty => ⟨char, member, rfl, empty⟩, fun ⟨_, _, _, empty⟩ => empty⟩
    · rename_i other
      constructor
      · exact nofun
      · rintro ⟨_, member, rfl, _⟩
        exact absurd member other
  | seq first second firstIH secondIH =>
    have behindFirst : Matches (sequence (first.derivative char) second) rest ↔
        ∃ front back, rest = front ++ back ∧ Matches first (char :: front) ∧
          Matches second back := by
      simp only [matches_sequence_iff, matches_seq_iff, firstIH]
    have split : Matches (seq first second) (char :: rest) ↔
        (Matches first [] ∧ Matches second (char :: rest)) ∨
          ∃ front back, rest = front ++ back ∧ Matches first (char :: front) ∧
            Matches second back := by
      rw [matches_seq_iff]
      constructor
      · rintro ⟨front, back, whole, frontMatches, backMatches⟩
        cases front with
        | nil => exact .inl ⟨frontMatches, by rw [whole]; exact backMatches⟩
        | cons head tail =>
          obtain ⟨rfl, rfl⟩ := List.cons.inj whole
          exact .inr ⟨tail, back, rfl, frontMatches, backMatches⟩
      · rintro (⟨firstNothing, secondMatches⟩ | ⟨front, back, rfl, frontMatches, backMatches⟩)
        · exact ⟨[], char :: rest, rfl, firstNothing, secondMatches⟩
        · exact ⟨char :: front, back, rfl, frontMatches, backMatches⟩
    by_cases empty : first.matchesNothing = true
    · have firstNothing := matchesNothing_iff.1 empty
      simp only [derivative, empty, if_true, matches_choice_iff, behindFirst, secondIH, split,
        firstNothing, true_and]
      exact or_comm
    · have notNothing : ¬ Matches first [] := fun matched => empty (matchesNothing_iff.2 matched)
      simp [derivative, empty, behindFirst, split, notNothing]
  | either left right leftIH rightIH =>
    simp only [derivative, matches_choice_iff, matches_either_iff, leftIH, rightIH]
  | many body bodyIH =>
    simp only [derivative, matches_sequence_iff, matches_seq_iff, bodyIH]
    constructor
    · rintro ⟨front, back, rfl, frontMatches, backMatches⟩
      exact .manyMore frontMatches backMatches
    · exact matches_many_cons

/-! ## The longest match -/

theorem longest?_nil {pattern : Pattern} :
    pattern.longest? [] = if pattern.matchesNothing then some 0 else none := by
  cases pattern <;> rfl

theorem longest?_cons {pattern : Pattern} {char : Char} {rest : List Char} :
    pattern.longest? (char :: rest) =
      match (pattern.derivative char).longest? rest with
      | some length => some (length + 1)
      | none => if pattern.matchesNothing then some 0 else none := by
  cases pattern with
  | never => cases rest <;> rfl
  | _ => rfl

theorem not_matches_of_longest?_eq_none {pattern : Pattern} {text front : List Char}
    (absent : pattern.longest? text = none) (isFront : front <+: text) :
    ¬ Matches pattern front := by
  induction text generalizing pattern front with
  | nil =>
    obtain rfl := List.prefix_nil.1 isFront
    rw [longest?_nil] at absent
    rw [← matchesNothing_iff]
    intro nothing
    simp [nothing] at absent
  | cons char rest ih =>
    rw [longest?_cons] at absent
    split at absent
    · cases absent
    · rename_i restAbsent
      cases front with
      | nil =>
        rw [← matchesNothing_iff]
        intro nothing
        simp [nothing] at absent
      | cons head tail =>
        obtain ⟨rfl, tailFront⟩ := List.cons_prefix_cons.1 isFront
        rw [← matches_derivative_iff]
        exact ih restAbsent tailFront

theorem matches_of_longest?_eq_some {pattern : Pattern} {text : List Char} {length : Nat}
    (found : pattern.longest? text = some length) :
    length ≤ text.length ∧ Matches pattern (text.take length) := by
  induction text generalizing pattern length with
  | nil =>
    rw [longest?_nil] at found
    split at found
    · rename_i nothing
      obtain rfl := Option.some.inj found
      exact ⟨Nat.le_refl _, matchesNothing_iff.1 nothing⟩
    · cases found
  | cons char rest ih =>
    rw [longest?_cons] at found
    split at found
    · rename_i inner restFound
      obtain rfl := Option.some.inj found
      obtain ⟨short, restMatches⟩ := ih restFound
      exact ⟨Nat.succ_le_succ short, matches_derivative_iff.1 restMatches⟩
    · split at found
      · rename_i nothing
        obtain rfl := Option.some.inj found
        exact ⟨Nat.zero_le _, matchesNothing_iff.1 nothing⟩
      · cases found

theorem not_matches_of_longest?_lt {pattern : Pattern} {text front : List Char} {length : Nat}
    (found : pattern.longest? text = some length) (isFront : front <+: text)
    (longer : length < front.length) : ¬ Matches pattern front := by
  induction text generalizing pattern front length with
  | nil =>
    obtain rfl := List.prefix_nil.1 isFront
    simp at longer
  | cons char rest ih =>
    cases front with
    | nil => simp at longer
    | cons head tail =>
      obtain ⟨rfl, tailFront⟩ := List.cons_prefix_cons.1 isFront
      rw [← matches_derivative_iff]
      rw [longest?_cons] at found
      split at found
      · rename_i inner restFound
        obtain rfl := Option.some.inj found
        exact ih restFound tailFront (Nat.lt_of_succ_lt_succ longer)
      · rename_i restAbsent
        exact not_matches_of_longest?_eq_none restAbsent tailFront

end DeclScan.Pattern
