import DeclScan.Token

/-!
# Angle runs

An angle run starts at a `<` and ends at the `>` that closes it: the first
place where as many brackets have been closed as opened.  All that stands
between belongs to the run.
-/

set_option autoImplicit false

namespace DeclScan

namespace AngleRun

/-- How many tokens it takes to close the last of `depth + 1` open brackets,
the one that closes it included. -/
def length? : Nat → List Token → Option Nat
  | _, [] => none
  | depth, token :: rest =>
    match token.kind, depth with
    | .closing .angle, 0 => some 1
    | .closing .angle, depth + 1 => (length? depth rest).map (· + 1)
    | .opening .angle, depth => (length? (depth + 1) rest).map (· + 1)
    | _, depth => (length? depth rest).map (· + 1)

theorem pos_of_length? {depth length : Nat} {tokens : List Token}
    (closed : length? depth tokens = some length) : 0 < length := by
  cases tokens with
  | nil => simp [length?] at closed
  | cons token rest =>
    unfold length? at closed
    split at closed
    · obtain rfl := Option.some.inj closed
      exact Nat.zero_lt_one
    all_goals
      obtain ⟨inner, _, rfl⟩ := Option.map_eq_some_iff.1 closed
      exact Nat.succ_pos inner

theorem le_of_length? {depth length : Nat} {tokens : List Token}
    (closed : length? depth tokens = some length) : length ≤ tokens.length := by
  induction tokens generalizing depth length with
  | nil => simp [length?] at closed
  | cons token rest ih =>
    unfold length? at closed
    split at closed
    · obtain rfl := Option.some.inj closed
      simp
    all_goals
      obtain ⟨inner, found, rfl⟩ := Option.map_eq_some_iff.1 closed
      have := ih found
      simp only [List.length_cons]
      omega

end AngleRun

end DeclScan
