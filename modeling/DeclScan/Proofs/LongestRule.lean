import DeclScan.Lexeme.Rule
import DeclScan.Pattern.Matches

/-!
# What the longest rule takes

The rules take the longest front of a text that one of them matches, and it is
read as the first of the rules that match it says.  `Rule.Takes` states this
without derivatives and without the order in which matches are compared, and
`Rule.longest?_append_iff` says that the two agree.
-/

set_option autoImplicit false

namespace DeclScan

namespace Pattern

variable {pattern : Pattern} {text : List Char} {length : Nat}

theorem longest?_eq_none_iff :
    pattern.longest? text = none ↔ ∀ front, front <+: text → ¬ Matches pattern front := by
  constructor
  · intro absent front isFront
    exact not_matches_of_longest?_eq_none absent isFront
  · intro unmatched
    cases found : pattern.longest? text with
    | none => rfl
    | some length =>
      exact absurd (matches_of_longest?_eq_some found).2 (unmatched _ (List.take_prefix _ _))

theorem longest?_eq_some_iff :
    pattern.longest? text = some length ↔
      length ≤ text.length ∧ Matches pattern (text.take length) ∧
        ∀ front, front <+: text → Matches pattern front → front.length ≤ length := by
  have longest {length : Nat} (found : pattern.longest? text = some length) (front : List Char)
      (isFront : front <+: text) (matched : Matches pattern front) : front.length ≤ length := by
    apply Nat.le_of_not_lt
    intro longer
    exact not_matches_of_longest?_lt found isFront longer matched
  constructor
  · intro found
    obtain ⟨short, matched⟩ := matches_of_longest?_eq_some found
    exact ⟨short, matched, longest found⟩
  · rintro ⟨short, matched, noneLonger⟩
    cases found : pattern.longest? text with
    | none => exact absurd matched (longest?_eq_none_iff.1 found _ (List.take_prefix _ _))
    | some other =>
      obtain ⟨otherShort, otherMatched⟩ := matches_of_longest?_eq_some found
      have least := noneLonger _ (List.take_prefix _ _) otherMatched
      have most := longest found _ (List.take_prefix _ _) matched
      rw [List.length_take] at least most
      congr 1
      omega

end Pattern

namespace Rule

open Pattern

variable {rule : Rule} {rules : List Rule} {char : Char} {rest : List Char} {reading : Reading}
  {length : Nat}

theorem reach?_eq_none_iff :
    rule.reach? char rest = none ↔
      ∀ front, front <+: rest → ¬ Matches rule.pattern (char :: front) := by
  rw [reach?, Pattern.longest?_eq_none_iff]
  simp only [matches_derivative_iff]

theorem reach?_eq_some_iff :
    rule.reach? char rest = some length ↔
      length ≤ rest.length ∧ Matches rule.pattern (char :: rest.take length) ∧
        ∀ front, front <+: rest → Matches rule.pattern (char :: front) →
          front.length ≤ length := by
  rw [reach?, Pattern.longest?_eq_some_iff]
  simp only [matches_derivative_iff]

/-- The first of the rules that match the text has this reading. -/
def FirstReads (text : List Char) (reading : Reading) : List Rule → Prop
  | [] => False
  | rule :: rules =>
    Matches rule.pattern text ∧ rule.reading = reading ∨
      ¬ Matches rule.pattern text ∧ FirstReads text reading rules

theorem FirstReads.exists_rule {text : List Char} (reads : FirstReads text reading rules) :
    ∃ rule ∈ rules, rule.reading = reading ∧ Matches rule.pattern text := by
  induction rules with
  | nil => exact reads.elim
  | cons rule rules ih =>
    rcases reads with ⟨matched, isReading⟩ | ⟨_, later⟩
    · exact ⟨rule, List.mem_cons_self, isReading, matched⟩
    · obtain ⟨other, member, found⟩ := ih later
      exact ⟨other, List.mem_cons_of_mem rule member, found⟩

/-- What the rules match of a text that starts with this character has at most
this many characters behind it. -/
def NoneLonger (rules : List Rule) (char : Char) (rest : List Char) (length : Nat) : Prop :=
  ∀ rule ∈ rules, ∀ front, front <+: rest → Matches rule.pattern (char :: front) →
    front.length ≤ length

theorem NoneLonger.mono {more : Nat} (noneLonger : NoneLonger rules char rest length)
    (le : length ≤ more) : NoneLonger rules char rest more := by
  intro rule member front isFront matched
  exact Nat.le_trans (noneLonger rule member front isFront matched) le

theorem longestOf_eq_none_iff :
    longestOf char rest rules = none ↔
      ∀ rule ∈ rules, ∀ front, front <+: rest → ¬ Matches rule.pattern (char :: front) := by
  induction rules with
  | nil => simp [longestOf]
  | cons rule rules ih =>
    rw [List.forall_mem_cons, ← ih, ← reach?_eq_none_iff, longestOf]
    split
    · rename_i absent
      simp [absent]
    · rename_i reached _
      simp [reached]
    · rename_i reached _
      split <;> simp [reached]

theorem of_longestOf_eq_some (longest : longestOf char rest rules = some (reading, length)) :
    length ≤ rest.length ∧ FirstReads (char :: rest.take length) reading rules ∧
      NoneLonger rules char rest length := by
  induction rules generalizing reading length with
  | nil => cases longest
  | cons rule rules ih =>
    unfold longestOf at longest
    simp only [FirstReads, NoneLonger, List.forall_mem_cons]
    split at longest
    · rename_i absent
      rw [reach?_eq_none_iff] at absent
      obtain ⟨short, reads, noneLonger⟩ := ih longest
      refine ⟨short, .inr ⟨absent _ (List.take_prefix _ _), reads⟩, ?_, noneLonger⟩
      intro front isFront matched
      exact absurd matched (absent front isFront)
    · rename_i reached absent
      obtain ⟨rfl, rfl⟩ := Prod.mk.inj (Option.some.inj longest)
      obtain ⟨short, matched, ruleLongest⟩ := reach?_eq_some_iff.1 reached
      refine ⟨short, .inl ⟨matched, rfl⟩, ruleLongest, ?_⟩
      intro other member front isFront otherMatched
      exact absurd otherMatched (longestOf_eq_none_iff.1 absent other member front isFront)
    · rename_i reached later
      obtain ⟨short, matched, ruleLongest⟩ := reach?_eq_some_iff.1 reached
      obtain ⟨laterShort, laterReads, laterLongest⟩ := ih later
      split at longest
      · rename_i le
        obtain ⟨rfl, rfl⟩ := Prod.mk.inj (Option.some.inj longest)
        exact ⟨short, .inl ⟨matched, rfl⟩, ruleLongest, laterLongest.mono le⟩
      · rename_i notLe
        obtain ⟨rfl, rfl⟩ := Prod.mk.inj (Option.some.inj longest)
        refine ⟨laterShort, .inr ⟨?_, laterReads⟩, ?_, laterLongest⟩
        · intro longerMatched
          have := ruleLongest _ (List.take_prefix _ _) longerMatched
          rw [List.length_take] at this
          omega
        · intro front isFront frontMatched
          have := ruleLongest front isFront frontMatched
          omega

theorem longestOf_eq_some (short : length ≤ rest.length)
    (reads : FirstReads (char :: rest.take length) reading rules)
    (noneLonger : NoneLonger rules char rest length) :
    longestOf char rest rules = some (reading, length) := by
  induction rules with
  | nil => exact reads.elim
  | cons rule rules ih =>
    obtain ⟨ruleLongest, laterLongest⟩ := List.forall_mem_cons.1 noneLonger
    rw [longestOf]
    rcases reads with ⟨matched, rfl⟩ | ⟨unmatched, later⟩
    · rw [reach?_eq_some_iff.2 ⟨short, matched, ruleLongest⟩]
      split
      · cases ‹some length = none›
      · rename_i found _
        rw [Option.some.inj found]
      · rename_i found later
        obtain ⟨laterShort, laterReads, _⟩ := of_longestOf_eq_some later
        obtain ⟨other, member, _, otherMatched⟩ := laterReads.exists_rule
        have le := laterLongest other member _ (List.take_prefix _ _) otherMatched
        rw [List.length_take, Nat.min_eq_left laterShort] at le
        rw [← Option.some.inj found, if_pos le]
    · rw [ih later laterLongest]
      split
      · rfl
      · cases ‹some (reading, length) = none›
      · rename_i ruleLength _ _ reached found
        obtain ⟨rfl, rfl⟩ := Prod.mk.inj (Option.some.inj found)
        obtain ⟨ruleShort, matched, _⟩ := reach?_eq_some_iff.1 reached
        have le := ruleLongest _ (List.take_prefix _ _) matched
        rw [List.length_take, Nat.min_eq_left ruleShort] at le
        rw [if_neg]
        intro ge
        rw [Nat.le_antisymm le ge] at matched
        exact unmatched matched

/-- With this rest behind it, the front of a text is read in this way: no rule
matches a longer front, and the first of the rules that match it says so. -/
structure Takes (reading : Reading) (text rest : List Char) : Prop where
  first : FirstReads text reading all
  longest : ∀ rule ∈ all, ∀ front, front <+: text ++ rest → Matches rule.pattern front →
    front.length ≤ text.length

theorem longest?_append_iff {taken : List Char} :
    longest? char (taken ++ rest) = some (reading, taken.length) ↔
      Takes reading (char :: taken) rest := by
  constructor
  · intro longest
    obtain ⟨_, reads, noneLonger⟩ := of_longestOf_eq_some longest
    rw [List.take_left] at reads
    refine ⟨reads, fun rule member front isFront matched => ?_⟩
    cases front with
    | nil => exact Nat.zero_le _
    | cons head front =>
      obtain ⟨rfl, isRestFront⟩ := List.cons_prefix_cons.1 isFront
      exact Nat.succ_le_succ (noneLonger rule member front isRestFront matched)
  · rintro ⟨reads, longest⟩
    apply longestOf_eq_some
    · simp
    · rwa [List.take_left]
    · intro rule member front isFront matched
      have isWholeFront : char :: front <+: char :: taken ++ rest :=
        List.cons_prefix_cons.2 ⟨rfl, isFront⟩
      exact Nat.le_of_succ_le_succ (longest rule member _ isWholeFront matched)

/-- What is the longest with more text behind it is the longest with less. -/
theorem Takes.shorter {text more : List Char} (taken : Takes reading text (rest ++ more)) :
    Takes reading text rest where
  first := taken.first
  longest := by
    intro rule member front isFront matched
    have isLonger : text ++ rest <+: text ++ (rest ++ more) := by
      rw [← List.append_assoc]
      exact List.prefix_append _ _
    exact taken.longest rule member front (isFront.trans isLonger) matched

theorem longest?_eq_some (found : longest? char rest = some (reading, length)) :
    ∃ taken after, rest = taken ++ after ∧ taken.length = length ∧
      Takes reading (char :: taken) after := by
  obtain ⟨short, _⟩ := of_longestOf_eq_some found
  have taken : (rest.take length).length = length := by
    rw [List.length_take]
    omega
  refine ⟨rest.take length, rest.drop length, (List.take_append_drop _ _).symm, taken, ?_⟩
  rwa [← longest?_append_iff, List.take_append_drop, taken]

end Rule

end DeclScan
