import DeclScan.AngleRun

/-!
# Angle runs by counting

An angle run can be described without a depth: it starts at a `<`, and at its
last token as many brackets have been closed as opened for the first time.
`AngleRun.length?_eq_some_iff` ties the search for the end to these counts, and
`AngleRun.isRun_cons_iff` says that it finds exactly the runs.
-/

set_option autoImplicit false

namespace DeclScan

namespace AngleRun

section Steps

variable {token : Token} {rest : List Token}

theorem length?_opening (depth : Nat) (opens : token.kind = .opening .angle) :
    length? depth (token :: rest) = (length? (depth + 1) rest).map (· + 1) := by
  simp [length?, opens]

theorem length?_closing (depth : Nat) (closes : token.kind = .closing .angle) :
    length? (depth + 1) (token :: rest) = (length? depth rest).map (· + 1) := by
  simp [length?, closes]

theorem length?_closing_last (closes : token.kind = .closing .angle) :
    length? 0 (token :: rest) = some 1 := by
  simp [length?, closes]

theorem length?_cons {depth : Nat} (noOpening : token.kind ≠ .opening .angle)
    (noClosing : token.kind ≠ .closing .angle) :
    length? depth (token :: rest) = (length? depth rest).map (· + 1) := by
  rw [length?.eq_def]
  dsimp only
  split
  · rename_i closes
    exact absurd closes noClosing
  · rename_i closes
    exact absurd closes noClosing
  · rename_i opens
    exact absurd opens noOpening
  · rfl

end Steps

def opened (tokens : List Token) : Nat :=
  tokens.countP fun token => token.kind = .opening .angle

def closed (tokens : List Token) : Nat :=
  tokens.countP fun token => token.kind = .closing .angle

/-- The front of this length closes `depth + 1` brackets more than it opens,
and no shorter front does. -/
def Closes (depth : Nat) (tokens : List Token) (length : Nat) : Prop :=
  length ≤ tokens.length ∧
    closed (tokens.take length) = opened (tokens.take length) + depth + 1 ∧
    ∀ shorter < length,
      closed (tokens.take shorter) ≠ opened (tokens.take shorter) + depth + 1

theorem not_closes_zero (depth : Nat) (tokens : List Token) : ¬ Closes depth tokens 0 := by
  intro closes
  have balanced := closes.2.1
  simp [opened, closed] at balanced

theorem closes_cons_iff {depth left length : Nat} {token : Token} {rest : List Token}
    (deeper : opened [token] + depth = closed [token] + left) :
    Closes depth (token :: rest) (length + 1) ↔ Closes left rest length := by
  have opens (shorter : Nat) : opened ((token :: rest).take (shorter + 1)) =
      opened (rest.take shorter) + opened [token] := by
    simp [opened, List.countP_cons]
  have closes (shorter : Nat) : closed ((token :: rest).take (shorter + 1)) =
      closed (rest.take shorter) + closed [token] := by
    simp [closed, List.countP_cons]
  constructor
  · intro closing
    obtain ⟨fits, balanced, first⟩ := closing
    rw [opens, closes] at balanced
    refine ⟨Nat.le_of_succ_le_succ fits, by omega, ?_⟩
    intro shorter shortens balancedBefore
    apply first (shorter + 1) (Nat.succ_lt_succ shortens)
    rw [opens, closes]
    omega
  · intro closing
    obtain ⟨fits, balanced, first⟩ := closing
    refine ⟨Nat.succ_le_succ fits, ?_, ?_⟩
    · rw [opens, closes]
      omega
    intro shorter shortens balancedBefore
    cases shorter with
    | zero => simp [opened, closed] at balancedBefore
    | succ shorter =>
      rw [opens, closes] at balancedBefore
      apply first shorter (Nat.lt_of_succ_lt_succ shortens)
      omega

theorem closes_of_closer_iff {length : Nat} {token : Token} {rest : List Token}
    (closer : token.kind = .closing .angle) : Closes 0 (token :: rest) length ↔ length = 1 := by
  have one : closed ((token :: rest).take 1) = opened ((token :: rest).take 1) + 0 + 1 := by
    simp [opened, closed, closer]
  constructor
  · intro closes
    rcases Nat.lt_trichotomy length 1 with none | exact | more
    · obtain rfl : length = 0 := by omega
      exact absurd closes (not_closes_zero 0 _)
    · exact exact
    · exact absurd one (closes.2.2 1 more)
  · rintro rfl
    refine ⟨by simp, one, ?_⟩
    intro shorter shortens
    obtain rfl : shorter = 0 := by omega
    simp [opened, closed]

theorem length?_eq_some_iff {depth length : Nat} {tokens : List Token} :
    length? depth tokens = some length ↔ Closes depth tokens length := by
  induction tokens generalizing depth length with
  | nil =>
    constructor
    · intro found
      cases found
    · intro closes
      obtain rfl : length = 0 := Nat.le_zero.1 closes.1
      exact absurd closes (not_closes_zero depth [])
  | cons token rest ih =>
    have behind {left : Nat} (deeper : opened [token] + depth = closed [token] + left) :
        (length? left rest).map (· + 1) = some length ↔
          Closes depth (token :: rest) length := by
      cases length with
      | zero => simp [not_closes_zero]
      | succ length => simp [closes_cons_iff deeper, ih]
    unfold length?
    split
    · rename_i closer
      rw [closes_of_closer_iff closer]
      simp [eq_comm]
    · rename_i left closer
      exact behind (by simp [opened, closed, closer]; omega)
    · rename_i opener
      exact behind (by simp [opened, closed, opener]; omega)
    · rename_i outer _ _ noOpener noLast noInner
      have noCloser : token.kind ≠ .closing .angle := by
        intro closer
        cases outer with
        | zero => exact noLast closer rfl
        | succ left => exact noInner left closer rfl
      refine behind ?_
      simp [opened, closed, noCloser, show token.kind ≠ .opening .angle from noOpener]

/-- The tokens from a `<` to the token at which as many brackets are closed as
opened for the first time. -/
structure IsRun (run : List Token) : Prop where
  starts : ∃ first ∈ run.head?, first.kind = .opening .angle
  balanced : closed run = opened run
  shortest : ∀ length, 0 < length → length < run.length →
    closed (run.take length) ≠ opened (run.take length)

theorem closes_length_iff {depth : Nat} {front back : List Token} :
    Closes depth (front ++ back) front.length ↔ Closes depth front front.length := by
  have whole : (front ++ back).take front.length = front.take front.length := by simp
  have shorterFront (shorter : Nat) (shortens : shorter < front.length) :
      (front ++ back).take shorter = front.take shorter :=
    List.take_append_of_le_length (Nat.le_of_lt shortens)
  unfold Closes
  rw [whole]
  constructor
  · intro closing
    obtain ⟨_, balanced, first⟩ := closing
    refine ⟨Nat.le_refl _, balanced, ?_⟩
    intro shorter shortens
    rw [← shorterFront shorter shortens]
    exact first shorter shortens
  · intro closing
    obtain ⟨_, balanced, first⟩ := closing
    refine ⟨by simp, balanced, ?_⟩
    intro shorter shortens
    rw [shorterFront shorter shortens]
    exact first shorter shortens

/-- Where a run ends does not depend on what follows it. -/
theorem length?_append_iff {depth : Nat} {front back : List Token} :
    length? depth (front ++ back) = some front.length ↔
      length? depth front = some front.length := by
  rw [length?_eq_some_iff, length?_eq_some_iff, closes_length_iff]

theorem length?_take {depth length : Nat} {tokens : List Token}
    (found : length? depth tokens = some length) :
    length? depth (tokens.take length) = some length := by
  have fits := le_of_length? found
  have exact : (tokens.take length).length = length := by simp [fits]
  have split : length? depth (tokens.take length ++ tokens.drop length) =
      some (tokens.take length).length := by
    rw [List.take_append_drop, exact]
    exact found
  rw [length?_append_iff, exact] at split
  exact split

theorem isRun_cons_iff {token : Token} {rest : List Token} :
    IsRun (token :: rest) ↔
      token.kind = .opening .angle ∧ length? 0 rest = some rest.length := by
  rw [length?_eq_some_iff]
  have counts (opener : token.kind = .opening .angle) (length : Nat) :
      closed ((token :: rest).take (length + 1)) = closed (rest.take length) ∧
        opened ((token :: rest).take (length + 1)) = opened (rest.take length) + 1 := by
    simp [opened, closed, opener]
  have whole : (token :: rest).take (rest.length + 1) = token :: rest := by simp
  constructor
  · intro isRun
    obtain ⟨⟨first, isFirst, opener⟩, balanced, shortest⟩ := isRun
    obtain rfl : token = first := by simpa using isFirst
    refine ⟨opener, Nat.le_refl _, ?_, ?_⟩
    · have ⟨closes, opens⟩ := counts opener rest.length
      rw [whole] at closes opens
      omega
    · intro shorter shortens
      have ⟨closes, opens⟩ := counts opener shorter
      have := shortest (shorter + 1) (Nat.succ_pos _) (Nat.succ_lt_succ shortens)
      omega
  · intro closing
    obtain ⟨opener, _, balanced, first⟩ := closing
    refine ⟨⟨token, by simp, opener⟩, ?_, ?_⟩
    · have ⟨closes, opens⟩ := counts opener rest.length
      rw [whole] at closes opens
      omega
    · intro length positive shortens
      obtain ⟨shorter, rfl⟩ := Nat.exists_eq_succ_of_ne_zero (Nat.ne_of_gt positive)
      have ⟨closes, opens⟩ := counts opener shorter
      have := first shorter (Nat.lt_of_succ_lt_succ shortens)
      rw [Nat.succ_eq_add_one]
      omega

theorem IsRun.exists_cons {run : List Token} (isRun : IsRun run) :
    ∃ opening inner, run = opening :: inner ∧ opening.kind = .opening .angle ∧
      ∀ back, length? 0 (inner ++ back) = some inner.length := by
  obtain ⟨opening, isFirst, _⟩ := isRun.starts
  obtain ⟨inner, rfl⟩ := List.head?_eq_some_iff.1 isFirst
  obtain ⟨opens, closed⟩ := isRun_cons_iff.1 isRun
  exact ⟨opening, inner, rfl, opens, fun _ => length?_append_iff.2 closed⟩

theorem IsRun.ne_nil {run : List Token} (isRun : IsRun run) : run ≠ [] := by
  obtain ⟨opening, inner, rfl, _⟩ := isRun.exists_cons
  exact List.cons_ne_nil opening inner

theorem isRun_of_length? {token : Token} {rest : List Token} {length : Nat}
    (opens : token.kind = .opening .angle) (closed : length? 0 rest = some length) :
    IsRun (token :: rest.take length) := by
  rw [isRun_cons_iff, List.length_take_of_le (le_of_length? closed)]
  exact ⟨opens, length?_take closed⟩

/-! ## Searches that go on -/

/-- Tokens that close just what was open are passed by a deeper search, which
goes on behind them. -/
theorem length?_append_of_closed {left : Nat} {front : List Token}
    (closed : length? left front = some front.length) (depth : Nat) (back : List Token) :
    length? (left + depth + 1) (front ++ back) =
      (length? depth back).map (· + front.length) := by
  induction front generalizing left with
  | nil => cases closed
  | cons token rest ih =>
    -- whatever the token does, the rest closes what it leaves open
    have further {next : Nat}
        (closed : (length? next rest).map (· + 1) = some (token :: rest).length) :
        (length? (next + depth + 1) (rest ++ back)).map (· + 1) =
          (length? depth back).map (· + (token :: rest).length) := by
      obtain ⟨length, closedRest, isLength⟩ := Option.map_eq_some_iff.1 closed
      obtain rfl : length = rest.length := Nat.succ.inj isLength
      rw [ih closedRest, Option.map_map]
      rfl
    rw [List.cons_append]
    by_cases opens : token.kind = .opening .angle
    · rw [length?_opening _ opens] at closed ⊢
      have deeper := further closed
      rwa [Nat.add_right_comm left 1 depth] at deeper
    by_cases closes : token.kind = .closing .angle
    · cases left with
      | zero =>
        rw [length?_closing_last closes] at closed
        have nothing : rest = [] := by simpa using closed
        rw [Nat.zero_add, length?_closing _ closes, nothing]
        rfl
      | succ left =>
        rw [length?_closing _ closes] at closed
        rw [Nat.add_right_comm left 1 depth, length?_closing _ closes]
        exact further closed
    · rw [length?_cons opens closes] at closed ⊢
      exact further closed

theorem length?_run_append {run : List Token} (isRun : IsRun run) (depth : Nat)
    (back : List Token) :
    length? depth (run ++ back) = (length? depth back).map (· + run.length) := by
  obtain ⟨opening, inner, rfl, opens, closed⟩ := isRun.exists_cons
  have closedAlone : length? 0 inner = some inner.length := by
    rw [← closed [], List.append_nil]
  have passed := length?_append_of_closed closedAlone depth back
  rw [Nat.zero_add] at passed
  rw [List.cons_append, length?_opening _ opens, passed, Option.map_map]
  rfl

/-- A search ends within the tokens in front, or it goes on behind them at a
depth that they decide. -/
theorem length?_append_cases (depth : Nat) (front : List Token) :
    (∃ length ≤ front.length, ∀ back, length? depth (front ++ back) = some length) ∨
      ∃ left, ∀ back, length? depth (front ++ back) =
        (length? left back).map (· + front.length) := by
  induction front generalizing depth with
  | nil => exact .inr ⟨depth, fun back => by simp⟩
  | cons token rest ih =>
    have further {next : Nat} (step : ∀ ahead,
        length? depth (token :: ahead) = (length? next ahead).map (· + 1)) :
        (∃ length ≤ (token :: rest).length,
            ∀ back, length? depth (token :: rest ++ back) = some length) ∨
          ∃ left, ∀ back, length? depth (token :: rest ++ back) =
            (length? left back).map (· + (token :: rest).length) := by
      rcases ih next with ⟨length, within, ends⟩ | ⟨left, goesOn⟩
      · refine .inl ⟨length + 1, Nat.succ_le_succ within, fun back => ?_⟩
        rw [List.cons_append, step, ends]
        rfl
      · refine .inr ⟨left, fun back => ?_⟩
        rw [List.cons_append, step, goesOn, Option.map_map]
        rfl
    by_cases opens : token.kind = .opening .angle
    · exact further fun ahead => length?_opening depth opens
    by_cases closes : token.kind = .closing .angle
    · cases depth with
      | zero => exact .inl ⟨1, by simp, fun back => length?_closing_last closes⟩
      | succ depth => exact further fun ahead => length?_closing depth closes
    · exact further fun ahead => length?_cons opens closes

theorem length?_append_of_some {depth length : Nat} {front : List Token}
    (closed : length? depth front = some length) (back : List Token) :
    length? depth (front ++ back) = some length := by
  rcases length?_append_cases depth front with ⟨_, _, ends⟩ | ⟨_, goesOn⟩
  · have alone := ends []
    rw [List.append_nil, closed] at alone
    rw [ends, alone]
  · have alone := goesOn []
    rw [List.append_nil, closed] at alone
    cases alone

/-! ## Runs among other tokens -/

def RunsTo (tokens : List Token) (start stop : Nat) : Prop :=
  ∃ before run after, tokens = before ++ run ++ after ∧ IsRun run ∧
    before.length = start ∧ before.length + run.length = stop + 1

theorem runsTo_iff {before inner : List Token} {opening : Token} {stop : Nat} :
    RunsTo (before ++ opening :: inner) before.length stop ↔
      opening.kind = .opening .angle ∧
        ∃ length, length? 0 inner = some length ∧ stop = before.length + length := by
  constructor
  · rintro ⟨front, run, back, split, isRun, sameLength, isStop⟩
    obtain ⟨first, rest, rfl, opens, closed⟩ := isRun.exists_cons
    rw [List.append_assoc, List.cons_append] at split
    obtain ⟨rfl, isRest⟩ := List.append_inj split sameLength.symm
    obtain ⟨rfl, rfl⟩ := List.cons.inj isRest
    refine ⟨opens, rest.length, closed back, ?_⟩
    rw [List.length_cons] at isStop
    omega
  · rintro ⟨opens, length, closed, rfl⟩
    refine ⟨before, opening :: inner.take length, inner.drop length, ?_,
      isRun_of_length? opens closed, rfl, ?_⟩
    · rw [List.append_assoc, List.cons_append, List.take_append_drop]
    · rw [List.length_cons, List.length_take_of_le (le_of_length? closed), Nat.add_assoc]

theorem RunsTo.exists_split {tokens : List Token} {start stop : Nat}
    (runs : RunsTo tokens start stop) :
    ∃ before opening inner, tokens = before ++ opening :: inner ∧ before.length = start ∧
      opening.kind = .opening .angle := by
  obtain ⟨before, run, after, rfl, isRun, isStart, _⟩ := runs
  obtain ⟨opening, inner, rfl, opens, _⟩ := isRun.exists_cons
  exact ⟨before, opening, inner ++ after, by simp, isStart, opens⟩

theorem closer_of_length? {depth : Nat} {tokens : List Token}
    (found : length? depth tokens = some tokens.length) :
    ∃ last ∈ tokens.getLast?, last.kind = .closing .angle := by
  induction tokens generalizing depth with
  | nil => simp [length?] at found
  | cons token rest ih =>
    have behind {left : Nat}
        (found : (length? left rest).map (· + 1) = some (token :: rest).length) :
        ∃ last ∈ (token :: rest).getLast?, last.kind = .closing .angle := by
      obtain ⟨length, foundRest, exact⟩ := Option.map_eq_some_iff.1 found
      obtain rfl : length = rest.length := Nat.succ.inj exact
      obtain ⟨last, isLast, closer⟩ := ih foundRest
      refine ⟨last, ?_, closer⟩
      cases rest with
      | nil => cases isLast
      | cons next others => exact isLast
    unfold length? at found
    split at found
    · rename_i closer
      have single : rest = [] := by simpa using found
      exact ⟨token, by simp [single], closer⟩
    all_goals exact behind found

end AngleRun

end DeclScan
