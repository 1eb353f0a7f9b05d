import DeclScan.Proofs.LeadIn

/-!
# Where angle brackets are closed

A lead-in closes every `<` that it holds.  A `>` closes the last `<` that is
still open, so it closes none only where all brackets before it are closed:
`exists_runsTo_of_not_allClosed`.
-/

set_option autoImplicit false

namespace DeclScan

namespace AngleRun

def AllClosed (tokens : List Token) : Prop :=
  ∀ before opening inner, tokens = before ++ opening :: inner → opening.kind = .opening .angle →
    ∃ length, length? 0 inner = some length

theorem AllClosed.drop {tokens : List Token} (allClosed : AllClosed tokens) (count : Nat) :
    AllClosed (tokens.drop count) := by
  intro before opening inner split opens
  apply allClosed (tokens.take count ++ before) opening inner _ opens
  rw [List.append_assoc, ← split, List.take_append_drop]

theorem AllClosed.append {front back : List Token} (first : AllClosed front)
    (second : AllClosed back) : AllClosed (front ++ back) := by
  intro before opening inner split opens
  rcases List.append_eq_append_iff.1 split with ⟨overlap, _, isBack⟩ | ⟨overlap, isFront, isRest⟩
  · exact second overlap opening inner isBack opens
  cases overlap with
  | nil => exact second [] opening inner isRest.symm opens
  | cons token rest =>
    obtain ⟨rfl, rfl⟩ := List.cons.inj isRest
    obtain ⟨length, closed⟩ := first before opening rest isFront opens
    exact ⟨length, length?_append_of_some closed back⟩

theorem exists_length?_of_le {left depth length : Nat} {tokens : List Token} (less : left ≤ depth)
    (closed : length? depth tokens = some length) :
    ∃ shorter, length? left tokens = some shorter := by
  induction tokens generalizing left depth length with
  | nil => cases closed
  | cons token rest ih =>
    have further {fewer more : Nat} (less : fewer ≤ more)
        (closed : (length? more rest).map (· + 1) = some length) :
        ∃ shorter, (length? fewer rest).map (· + 1) = some shorter := by
      obtain ⟨_, closedRest, _⟩ := Option.map_eq_some_iff.1 closed
      obtain ⟨shorter, found⟩ := ih less closedRest
      exact ⟨shorter + 1, by rw [found]; rfl⟩
    by_cases opens : token.kind = .opening .angle
    · rw [length?_opening _ opens] at closed ⊢
      exact further (Nat.succ_le_succ less) closed
    by_cases closes : token.kind = .closing .angle
    · cases left with
      | zero => exact ⟨1, length?_closing_last closes⟩
      | succ left =>
        obtain ⟨more, rfl⟩ := Nat.exists_eq_add_of_le less
        rw [Nat.add_right_comm, length?_closing _ closes] at closed
        rw [length?_closing _ closes]
        exact further (Nat.le_add_right left more) closed
    · rw [length?_cons opens closes] at closed ⊢
      exact further less closed

theorem exists_length?_of_cons {depth length : Nat} {token : Token} {rest : List Token}
    (closed : length? depth (token :: rest) = some (length + 2)) :
    ∃ next, length? next rest = some (length + 1) := by
  unfold length? at closed
  split at closed
  · cases closed
  all_goals
    obtain ⟨inner, closedRest, isLength⟩ := Option.map_eq_some_iff.1 closed
    obtain rfl : inner = length + 1 := Nat.succ.inj isLength
    exact ⟨_, closedRest⟩

theorem exists_length?_of_passed {depth length : Nat} {before inner : List Token} {opening : Token}
    (opens : opening.kind = .opening .angle) (passes : before.length < length)
    (closed : length? depth (before ++ opening :: inner) = some length) :
    ∃ shorter, length? 0 inner = some shorter := by
  obtain ⟨more, rfl⟩ := Nat.exists_eq_add_of_lt passes
  induction before generalizing depth with
  | nil =>
    rw [List.nil_append, length?_opening _ opens] at closed
    obtain ⟨_, closedInner, _⟩ := Option.map_eq_some_iff.1 closed
    exact exists_length?_of_le (Nat.zero_le _) closedInner
  | cons token before ih =>
    rw [List.length_cons, Nat.add_right_comm before.length 1 more] at closed
    obtain ⟨next, closedRest⟩ := exists_length?_of_cons closed
    exact ih (by omega) closedRest

theorem IsRun.allClosed {run : List Token} (isRun : IsRun run) : AllClosed run := by
  obtain ⟨first, rest, rfl, opensFirst, closed⟩ := isRun.exists_cons
  intro before opening inner split opens
  cases before with
  | nil =>
    obtain ⟨rfl, rfl⟩ := List.cons.inj split
    exact ⟨rest.length, by rw [← closed [], List.append_nil]⟩
  | cons token before =>
    obtain ⟨rfl, rfl⟩ := List.cons.inj split
    have closedAlone := closed []
    rw [List.append_nil] at closedAlone
    exact exists_length?_of_passed opens (by simp) closedAlone

theorem allClosed_of_pieces {single : TokenKind → Bool} {tokens : List Token}
    (noOpening : single (.opening .angle) = false) (pieces : Pieces single tokens) :
    AllClosed tokens := by
  induction pieces with
  | nil =>
    intro before opening inner split
    simp at split
  | @token token rest isSingle _ ih =>
    have first : AllClosed [token] := by
      intro before opening inner split opens
      obtain rfl : opening = token := List.mem_singleton.1 (by simp [split])
      rw [opens, noOpening] at isSingle
      cases isSingle
    exact first.append ih
  | run isRun _ ih => exact isRun.allClosed.append ih

/-- Where every bracket is closed and no search ends, a search ends behind as it
would start there. -/
theorem length?_append_of_allClosed {front : List Token} (allClosed : AllClosed front)
    (unended : length? 0 front = none) (back : List Token) :
    length? 0 (front ++ back) = (length? 0 back).map (· + front.length) := by
  match front with
  | [] => simp
  | token :: rest =>
    by_cases opens : token.kind = .opening .angle
    · obtain ⟨length, closed⟩ := allClosed [] token rest rfl opens
      have isRun := isRun_of_length? opens closed
      have split : token :: rest = (token :: rest.take length) ++ rest.drop length := by simp
      rw [split, length?_run_append isRun, Option.map_eq_none_iff] at unended
      have behind := length?_append_of_allClosed (allClosed.drop (length + 1)) unended back
      rw [List.drop_succ_cons] at behind
      rw [split, List.append_assoc, length?_run_append isRun, behind, Option.map_map]
      congr 1
      funext further
      simp only [Function.comp_apply, List.length_append]
      omega
    by_cases closes : token.kind = .closing .angle
    · rw [length?_closing_last closes] at unended
      cases unended
    · rw [length?_cons opens closes, Option.map_eq_none_iff] at unended
      have behind := length?_append_of_allClosed (allClosed.drop 1) unended back
      rw [List.drop_succ_cons, List.drop_zero] at behind
      rw [List.cons_append, length?_cons opens closes, behind, Option.map_map]
      rfl
termination_by front.length
decreasing_by all_goals simp only [List.length_cons, List.length_drop]; omega

theorem RunsTo.append_left {tokens : List Token} {start stop : Nat} (front : List Token)
    (runs : RunsTo tokens start stop) :
    RunsTo (front ++ tokens) (front.length + start) (front.length + stop) := by
  obtain ⟨before, run, after, rfl, isRun, rfl, isStop⟩ := runs
  refine ⟨front ++ before, run, after, by simp, isRun, by simp, ?_⟩
  rw [List.length_append]
  omega

/-- A `>` closes the last bracket that is still open. -/
theorem exists_runsTo_of_not_allClosed {front : List Token} {closer : Token}
    (closes : closer.kind = .closing .angle) (back : List Token) (unclosed : ¬ AllClosed front) :
    ∃ start, RunsTo (front ++ closer :: back) start front.length := by
  simp only [AllClosed, Classical.not_forall] at unclosed
  obtain ⟨before, opening, inner, rfl, opens, never⟩ := unclosed
  -- the last bracket left open is the one with none left open behind it
  by_cases allClosed : AllClosed inner
  · refine ⟨before.length, ?_⟩
    have unended : length? 0 inner = none := by
      cases ended : length? 0 inner with
      | none => rfl
      | some length => exact absurd ⟨length, ended⟩ never
    rw [List.append_assoc, List.cons_append, runsTo_iff]
    refine ⟨opens, inner.length + 1, ?_, by simp⟩
    rw [length?_append_of_allClosed allClosed unended, length?_closing_last closes,
      Option.map_some, Nat.add_comm]
  · obtain ⟨start, runs⟩ := exists_runsTo_of_not_allClosed closes back allClosed
    have further := runs.append_left (before ++ [opening])
    simp only [List.length_append, List.length_singleton, List.append_assoc,
      List.singleton_append, Nat.add_assoc, Nat.add_comm 1] at further
    exact ⟨_, by simpa using further⟩
termination_by front.length

end AngleRun

end DeclScan
