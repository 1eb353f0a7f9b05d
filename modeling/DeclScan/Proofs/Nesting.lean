import Mathlib
import DeclScan.Lexeme.Kind

/-!
# Nested brackets

Round, square and curly brackets nest if each is closed by one of its own kind
and pairs follow or contain each other.  In a nested text the pairs do not
cross: an opening bracket has one partner, and a pair that is found in the text
around another one lies in front of it, inside it or behind it.  The main
statement is `BracketPair.cases_of_first`.
-/

set_option autoImplicit false

namespace DeclScan

def Lexeme.isBracket (lexeme : Lexeme) : Bool :=
  match lexeme.kind with
  | .opening bracket | .closing bracket => bracket ≠ .angle
  | _ => false

/-- Brackets that nest, with other lexemes anywhere between them. -/
inductive Nested : List Lexeme → Prop where
  | nil : Nested []
  | plain {lexeme : Lexeme} {rest : List Lexeme} :
      lexeme.isBracket = false → Nested rest → Nested (lexeme :: rest)
  | pair {bracket : Bracket} {opening closing : Lexeme} {inside rest : List Lexeme} :
      bracket ≠ .angle → opening.kind = .opening bracket → closing.kind = .closing bracket →
      Nested inside → Nested rest → Nested (opening :: (inside ++ closing :: rest))

namespace Nested

theorem plain_append {front rest : List Lexeme} (plain : ∀ lexeme ∈ front, lexeme.isBracket = false)
    (nested : Nested rest) : Nested (front ++ rest) := by
  induction front with
  | nil => exact nested
  | cons lexeme front ih =>
    obtain ⟨lexemePlain, frontPlain⟩ := List.forall_mem_cons.1 plain
    exact .plain lexemePlain (ih frontPlain)

theorem of_filter {lexemes : List Lexeme} (nested : Nested (lexemes.filter Lexeme.isBracket)) :
    Nested lexemes := by
  generalize brackets : lexemes.filter Lexeme.isBracket = only at nested
  induction nested generalizing lexemes with
  | nil =>
    rw [← List.append_nil lexemes]
    refine plain_append (fun lexeme member => ?_) .nil
    exact Bool.eq_false_iff.2 (List.filter_eq_nil_iff.1 brackets lexeme member)
  | @plain lexeme rest plain _ _ =>
    have isBracket := (List.mem_filter.1 (brackets ▸ List.mem_cons_self)).2
    rw [plain] at isBracket
    cases isBracket
  | @pair bracket opening closing inside rest folds opens closes _ _ insideIH restIH =>
    obtain ⟨front, tail, rfl, frontPlain, _, isTail⟩ := List.filter_eq_cons_iff.1 brackets
    obtain ⟨within, back, rfl, isInside, isBack⟩ := List.filter_eq_append_iff.1 isTail
    obtain ⟨gap, after, rfl, gapPlain, _, isAfter⟩ := List.filter_eq_cons_iff.1 isBack
    have nestedWithin : Nested (within ++ gap) := by
      apply insideIH
      rw [List.filter_append, isInside, List.filter_eq_nil_iff.2 gapPlain, List.append_nil]
    refine plain_append (fun lexeme member => Bool.eq_false_iff.2 (frontPlain lexeme member)) ?_
    rw [← List.append_assoc]
    exact .pair folds opens closes nestedWithin (restIH isAfter)

end Nested

/-! ## Opened and closed brackets -/

def Lexeme.weight (lexeme : Lexeme) : Int :=
  match lexeme.kind with
  | .opening bracket => if bracket = .angle then 0 else 1
  | .closing bracket => if bracket = .angle then 0 else -1
  | _ => 0

def excess (lexemes : List Lexeme) : Int := (lexemes.map Lexeme.weight).sum

section Excess

variable {lexeme : Lexeme} {bracket : Bracket} {lexemes front back : List Lexeme}

theorem Lexeme.weight_plain (plain : lexeme.isBracket = false) : lexeme.weight = 0 := by
  unfold weight
  unfold isBracket at plain
  cases kind : lexeme.kind with
  | opening bracket => simpa [kind] using plain
  | closing bracket => simpa [kind] using plain
  | _ => rfl

theorem Lexeme.weight_opening (isOpening : lexeme.kind = .opening bracket)
    (folds : bracket ≠ .angle) : lexeme.weight = 1 := by
  simp [weight, isOpening, folds]

theorem Lexeme.weight_closing (isClosing : lexeme.kind = .closing bracket)
    (folds : bracket ≠ .angle) : lexeme.weight = -1 := by
  simp [weight, isClosing, folds]

@[simp] theorem excess_nil : excess [] = 0 := rfl

@[simp] theorem excess_cons : excess (lexeme :: lexemes) = lexeme.weight + excess lexemes := by
  simp [excess]

@[simp] theorem excess_append : excess (front ++ back) = excess front + excess back := by
  simp [excess]

theorem Nested.excess_eq (nested : Nested lexemes) : excess lexemes = 0 := by
  induction nested with
  | nil => rfl
  | plain plain _ ih =>
    rw [excess_cons, Lexeme.weight_plain plain, ih]
    rfl
  | pair folds opens closes _ _ insideIH restIH =>
    rw [excess_cons, excess_append, excess_cons, Lexeme.weight_opening opens folds,
      Lexeme.weight_closing closes folds, insideIH, restIH]
    rfl

/-- No front of nested lexemes closes more brackets than it opens. -/
theorem Nested.excess_front (nested : Nested lexemes) (isFront : front <+: lexemes) :
    0 ≤ excess front := by
  induction nested generalizing front with
  | nil =>
    obtain rfl := List.prefix_nil.1 isFront
    exact Int.le_refl 0
  | plain plain _ ih =>
    cases front with
    | nil => exact Int.le_refl 0
    | cons first front =>
      obtain ⟨rfl, isRestFront⟩ := List.cons_prefix_cons.1 isFront
      rw [excess_cons, Lexeme.weight_plain plain, Int.zero_add]
      exact ih isRestFront
  | @pair bracket opening closing inside rest folds opens closes nested _ insideIH restIH =>
    cases front with
    | nil => exact Int.le_refl 0
    | cons first front =>
      obtain ⟨rfl, back, whole⟩ := List.cons_prefix_cons.1 isFront
      rw [excess_cons, Lexeme.weight_opening opens folds]
      rcases List.append_eq_append_iff.1 whole with ⟨more, isInside, _⟩ | ⟨more, isFront, tail⟩
      · have := insideIH ⟨more, isInside.symm⟩
        omega
      · rw [isFront, excess_append, nested.excess_eq]
        cases more with
        | nil =>
          rw [excess_nil]
          decide
        | cons next more =>
          obtain ⟨rfl, isRest⟩ := List.cons.inj tail
          have := restIH ⟨back, isRest.symm⟩
          rw [excess_cons, Lexeme.weight_closing closes folds]
          omega

end Excess

/-! ## Pairs -/

structure BracketPair (lexemes : List Lexeme) where
  bracket : Bracket
  before : List Lexeme
  opening : Lexeme
  inside : List Lexeme
  closing : Lexeme
  after : List Lexeme
  whole : lexemes = before ++ opening :: (inside ++ closing :: after)
  folds : bracket ≠ .angle
  opens : opening.kind = .opening bracket
  closes : closing.kind = .closing bracket
  nested : Nested inside

namespace BracketPair

variable {lexemes middle front back : List Lexeme}

theorem length_before_lt (pair : BracketPair lexemes) : pair.before.length < lexemes.length := by
  have := congrArg List.length pair.whole
  simp only [List.length_append, List.length_cons] at this
  omega

theorem length_after_lt (pair : BracketPair lexemes) : pair.after.length < lexemes.length := by
  have := congrArg List.length pair.whole
  simp only [List.length_append, List.length_cons] at this
  omega

def Encloses (outer inner : BracketPair lexemes) : Prop :=
  outer.before.length < inner.before.length ∧ outer.after.length < inner.after.length

/-- A round or square pair is around this one, at whatever distance. -/
def IsEnclosed (pair : BracketPair lexemes) : Prop :=
  ∃ outer : BracketPair lexemes,
    (outer.bracket = .round ∨ outer.bracket = .square) ∧ outer.Encloses pair

/-- Whether folding makes a group of the pair: of a curly one only where it is
enclosed. -/
def MakesGroup (pair : BracketPair lexemes) : Prop :=
  pair.bracket ≠ .curly ∨ pair.IsEnclosed

def widen (pair : BracketPair middle) (front back : List Lexeme)
    (split : lexemes = front ++ (middle ++ back)) : BracketPair lexemes where
  bracket := pair.bracket
  before := front ++ pair.before
  opening := pair.opening
  inside := pair.inside
  closing := pair.closing
  after := pair.after ++ back
  whole := by
    have whole := congrArg (fun tokens => front ++ (tokens ++ back)) pair.whole
    rw [split]
    simpa using whole
  folds := pair.folds
  opens := pair.opens
  closes := pair.closes
  nested := pair.nested

theorem encloses_widen_iff {outer inner : BracketPair middle}
    (split : lexemes = front ++ (middle ++ back)) :
    (outer.widen front back split).Encloses (inner.widen front back split) ↔
      outer.Encloses inner := by
  simp [Encloses, widen]

theorem IsEnclosed.widen {pair : BracketPair middle} (enclosed : pair.IsEnclosed)
    (split : lexemes = front ++ (middle ++ back)) : (pair.widen front back split).IsEnclosed := by
  obtain ⟨outer, isRoundOrSquare, encloses⟩ := enclosed
  exact ⟨outer.widen front back split, isRoundOrSquare, (encloses_widen_iff split).2 encloses⟩

theorem closing_unique {inside within after rest : List Lexeme} {first second : Lexeme}
    (nestedInside : Nested inside) (nestedWithin : Nested within) (firstCloses : first.weight = -1)
    (secondCloses : second.weight = -1)
    (same : inside ++ first :: after = within ++ second :: rest) :
    inside = within ∧ first = second ∧ after = rest := by
  -- otherwise the shorter of the two and its closing bracket are a front of the longer
  have shorter {short long more : List Lexeme} {closing : Lexeme} (isShort : Nested short)
      (isLong : Nested long) (closes : closing.weight = -1) :
      long ≠ short ++ closing :: more := by
    intro split
    have isFront : short ++ [closing] <+: long := ⟨more, by rw [split]; simp⟩
    have := isLong.excess_front isFront
    rw [excess_append, excess_cons, isShort.excess_eq, closes, excess_nil] at this
    omega
  rcases List.append_eq_append_iff.1 same with ⟨more, isWithin, tail⟩ | ⟨more, isInside, tail⟩
  · cases more with
    | nil =>
      obtain ⟨rfl, rfl⟩ := List.cons.inj tail
      exact ⟨by simpa using isWithin.symm, rfl, rfl⟩
    | cons next more =>
      obtain ⟨rfl, _⟩ := List.cons.inj tail
      exact absurd isWithin (shorter nestedInside nestedWithin firstCloses)
  · cases more with
    | nil =>
      obtain ⟨rfl, rfl⟩ := List.cons.inj tail
      exact ⟨by simpa using isInside, rfl, rfl⟩
    | cons next more =>
      obtain ⟨rfl, _⟩ := List.cons.inj tail
      exact absurd isInside (shorter nestedWithin nestedInside secondCloses)

theorem closes_inside {before more inside after behind : List Lexeme} {opening closing : Lexeme}
    (nestedAround : Nested (before ++ opening :: more)) (opens : opening.weight = 1)
    (nestedInside : Nested inside) (same : more ++ behind = inside ++ closing :: after) :
    ∃ left, more = inside ++ closing :: left ∧ after = left ++ behind := by
  -- with the opening bracket one more is opened, and what is left closes it
  have opened := nestedAround.excess_eq
  have beforeOpened := nestedAround.excess_front (List.prefix_append before _)
  rw [excess_append, excess_cons, opens] at opened
  rcases List.append_eq_append_iff.1 same with ⟨left, isInside, _⟩ | ⟨left, isMore, tail⟩
  · have := nestedInside.excess_front ⟨_, isInside.symm⟩
    omega
  · cases left with
    | nil =>
      rw [isMore, List.append_nil, nestedInside.excess_eq] at opened
      omega
    | cons next left =>
      obtain ⟨rfl, isAfter⟩ := List.cons.inj tail
      exact ⟨left, isMore, isAfter⟩

theorem exists_of_plain {lexeme : Lexeme} {rest : List Lexeme} (plain : lexeme.isBracket = false)
    (pair : BracketPair (lexeme :: rest)) :
    ∃ later : BracketPair rest, pair = later.widen [lexeme] [] (by simp) := by
  obtain ⟨bracket, before, opening, inside, closing, after, whole, folds, opens, closes, nested⟩ :=
    pair
  cases before with
  | nil =>
    obtain ⟨rfl, _⟩ := List.cons.inj whole
    simp [Lexeme.isBracket, opens, folds] at plain
  | cons first before =>
    obtain ⟨rfl, isRest⟩ := List.cons.inj whole
    refine ⟨⟨bracket, before, opening, inside, closing, after, isRest, folds, opens, closes,
      nested⟩, ?_⟩
    simp [BracketPair.widen]

section First

variable {bracket : Bracket} {opening closing : Lexeme} {within rest : List Lexeme}
  (folds : bracket ≠ .angle) (opens : opening.kind = .opening bracket)
  (closes : closing.kind = .closing bracket) (nested : Nested within)

def first (rest : List Lexeme) : BracketPair (opening :: (within ++ closing :: rest)) :=
  ⟨bracket, [], opening, within, closing, rest, rfl, folds, opens, closes, nested⟩

theorem cases_of_first (pair : BracketPair (opening :: (within ++ closing :: rest))) :
    pair = first folds opens closes nested rest ∨
      (∃ inner : BracketPair within, pair = inner.widen [opening] (closing :: rest) rfl) ∨
      ∃ later : BracketPair rest,
        pair = later.widen (opening :: (within ++ [closing])) [] (by simp) := by
  obtain ⟨other, before, first, inside, last, after, whole, otherFolds, firstOpens, lastCloses,
    nestedInside⟩ := pair
  have firstWeight := Lexeme.weight_opening firstOpens otherFolds
  have lastWeight := Lexeme.weight_closing lastCloses otherFolds
  have closingWeight := Lexeme.weight_closing closes folds
  have notClosing : closing ≠ first := by
    rintro rfl
    omega
  cases before with
  | nil =>
    obtain ⟨rfl, tail⟩ := List.cons.inj whole
    obtain ⟨rfl, rfl, rfl⟩ :=
      closing_unique nested nestedInside closingWeight lastWeight tail
    obtain rfl : bracket = other := by
      rw [opens] at firstOpens
      injection firstOpens
    exact .inl rfl
  | cons head before =>
    obtain ⟨rfl, tail⟩ := List.cons.inj whole
    rcases List.append_eq_append_iff.1 tail with ⟨more, isBefore, tail⟩ | ⟨more, isWithin, tail⟩
    · cases more with
      | nil =>
        obtain ⟨rfl, _⟩ := List.cons.inj tail
        exact absurd rfl notClosing
      | cons next more =>
        obtain ⟨rfl, isRest⟩ := List.cons.inj tail
        subst isBefore
        refine .inr (.inr ⟨⟨other, more, first, inside, last, after, isRest, otherFolds,
          firstOpens, lastCloses, nestedInside⟩, ?_⟩)
        simp [BracketPair.widen]
    · cases more with
      | nil =>
        obtain ⟨rfl, _⟩ := List.cons.inj tail
        exact absurd rfl notClosing
      | cons next more =>
        obtain ⟨rfl, behind⟩ := List.cons.inj tail
        obtain ⟨left, rfl, rfl⟩ :=
          closes_inside (isWithin ▸ nested) firstWeight nestedInside behind.symm
        refine .inr (.inl ⟨⟨other, before, first, inside, last, left, isWithin, otherFolds,
          firstOpens, lastCloses, nestedInside⟩, ?_⟩)
        simp [BracketPair.widen]

include folds opens closes nested

theorem makesGroup_first_iff :
    (first folds opens closes nested rest).MakesGroup ↔ bracket ≠ .curly := by
  refine ⟨fun makesGroup => makesGroup.resolve_right ?_, .inl⟩
  rintro ⟨_, _, before, _⟩
  exact Nat.not_lt_zero _ before

theorem isEnclosed_inside_iff (inner : BracketPair within) :
    (inner.widen [opening] (closing :: rest) rfl : BracketPair _).IsEnclosed ↔
      (bracket = .round ∨ bracket = .square) ∨ inner.IsEnclosed := by
  constructor
  · rintro ⟨outer, isRoundOrSquare, encloses⟩
    rcases cases_of_first folds opens closes nested outer with rfl | ⟨other, rfl⟩ | ⟨later, rfl⟩
    · exact .inl isRoundOrSquare
    · exact .inr ⟨other, isRoundOrSquare, (encloses_widen_iff rfl).1 encloses⟩
    · have before := encloses.1
      have := inner.length_before_lt
      simp only [BracketPair.widen, List.length_append, List.length_cons, List.length_nil] at before
      omega
  · rintro (isRoundOrSquare | enclosed)
    · refine ⟨first folds opens closes nested rest, isRoundOrSquare, ?_, ?_⟩
      · simp [first, BracketPair.widen]
      · simp only [first, BracketPair.widen, List.length_append, List.length_cons]
        omega
    · exact enclosed.widen rfl

theorem makesGroup_inside_iff (inner : BracketPair within) :
    (inner.widen [opening] (closing :: rest) rfl : BracketPair _).MakesGroup ↔
      bracket ≠ .curly ∨ inner.MakesGroup := by
  have noCurly : (bracket = .round ∨ bracket = .square) ↔ bracket ≠ .curly := by
    cases bracket <;> simp at folds ⊢
  rw [MakesGroup, isEnclosed_inside_iff folds opens closes nested, noCurly]
  exact or_left_comm

theorem makesGroup_behind_iff (later : BracketPair rest) :
    (later.widen (opening :: (within ++ [closing])) [] (by simp) :
      BracketPair (opening :: (within ++ closing :: rest))).MakesGroup ↔ later.MakesGroup := by
  refine or_congr_right ⟨?_, fun enclosed => enclosed.widen _⟩
  rintro ⟨outer, isRoundOrSquare, encloses⟩
  have := later.length_after_lt
  have after := encloses.2
  rcases cases_of_first folds opens closes nested outer with rfl | ⟨inner, rfl⟩ | ⟨other, rfl⟩
  · simp only [first, BracketPair.widen, List.length_append, List.length_nil] at after
    omega
  · simp only [BracketPair.widen, List.length_append, List.length_cons, List.length_nil] at after
    omega
  · exact ⟨other, isRoundOrSquare, (encloses_widen_iff _).1 encloses⟩

end First

theorem makesGroup_plain_iff {lexeme : Lexeme} {rest : List Lexeme}
    (plain : lexeme.isBracket = false) (later : BracketPair rest) :
    (later.widen [lexeme] [] (by simp) : BracketPair (lexeme :: rest)).MakesGroup ↔
      later.MakesGroup := by
  refine or_congr_right ⟨?_, fun enclosed => enclosed.widen _⟩
  rintro ⟨outer, isRoundOrSquare, encloses⟩
  obtain ⟨other, rfl⟩ := exists_of_plain plain outer
  exact ⟨other, isRoundOrSquare, (encloses_widen_iff _).1 encloses⟩

end BracketPair

end DeclScan
