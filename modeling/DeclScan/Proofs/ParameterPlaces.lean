import Mathlib
import DeclScan.Proofs.Places

/-!
# Parameter lists by places

Whether a group holds parameters can be checked with a place in its nested
tokens and a count of the angle brackets that are open.  Here every step that
could go wrong is checked: leaving out the brackets of the group, and closing an
angle bracket.  `Signature.parametersByPlaces_eq` says that none goes wrong and
that the answer is the one of the library.
-/

set_option autoImplicit false

namespace DeclScan

def slice (tokens : List Token) (start stop : Nat) : Except Halt (List Token) :=
  if start ≤ stop ∧ stop ≤ tokens.length then .ok ((tokens.take stop).drop start)
  else .error .outside

def closeOne (opened : Nat) : Except Halt Nat := back opened 1

theorem closeOne_succ (depth : Nat) : closeOne (depth + 1) = .ok depth := rfl

namespace AngleRun

/-- The place of the token that closes the last open angle bracket.  The tokens
ahead start at the place given. -/
def closer (place opened : Nat) : List Token → Except Halt (Option Nat)
  | [] => .ok none
  | token :: rest =>
    if token.kind = .opening .angle then closer (place + 1) (opened + 1) rest
    else if token.kind = .closing .angle then do
      let left ← closeOne opened
      if left = 0 then .ok (some place) else closer (place + 1) left rest
    else closer (place + 1) opened rest

theorem closer_eq (place depth : Nat) (tokens : List Token) :
    closer (place + 1) (depth + 1) tokens = .ok ((length? depth tokens).map (place + ·)) := by
  induction tokens generalizing place depth with
  | nil => rfl
  | cons token rest ih =>
    have behind (left : Nat) :
        closer (place + 1 + 1) (left + 1) rest =
          .ok (((length? left rest).map (· + 1)).map (place + ·)) := by
      rw [ih, Option.map_map]
      congr 2
      funext length
      simp only [Function.comp_apply]
      omega
    by_cases opens : token.kind = .opening .angle
    · rw [closer, if_pos opens, behind]
      simp [length?, opens]
    · by_cases closes : token.kind = .closing .angle
      · rw [closer, if_neg opens, if_pos closes, closeOne_succ]
        simp only [bind, Except.bind]
        cases depth with
        | zero => simp [length?, closes]
        | succ left =>
          rw [if_neg (Nat.succ_ne_zero left), behind]
          simp [length?, closes]
      · rw [closer, if_neg opens, if_neg closes, behind, length?_cons opens closes]

theorem closer_of_opening {token : Token} (place : Nat) (rest : List Token)
    (opens : token.kind = .opening .angle) :
    closer place 0 (token :: rest) = .ok ((length? 0 rest).map (place + ·)) := by
  rw [closer, if_pos opens, Nat.zero_add, ← closer_eq]

end AngleRun

namespace Signature

def commaFrom? (tokens : List Token) (place : Nat) : Option Nat :=
  ((tokens.drop place).findIdx? fun next => next.kind = .punct .comma).map (place + ·)

theorem le_of_commaFrom? {tokens : List Token} {place comma : Nat}
    (found : commaFrom? tokens place = some comma) : place ≤ comma := by
  obtain ⟨length, _, rfl⟩ := Option.map_eq_some_iff.1 found
  exact Nat.le_add_right place length

def runEndAt (tokens : List Token) (place : Nat) : Except Halt (Option Nat) :=
  AngleRun.closer place 0 (tokens.drop place)

theorem runEndAt_of_opening {tokens ahead : List Token} {token : Token} {place : Nat}
    (dropped : tokens.drop place = token :: ahead) (opens : token.kind = .opening .angle) :
    runEndAt tokens place = .ok ((AngleRun.length? 0 ahead).map (place + ·)) := by
  rw [runEndAt, dropped, AngleRun.closer_of_opening place ahead opens]

theorem le_of_closer {tokens : List Token} {place opened last : Nat}
    (found : AngleRun.closer place opened tokens = .ok (some last)) : place ≤ last := by
  induction tokens generalizing place opened with
  | nil => cases found
  | cons token rest ih =>
    have behind {left : Nat} (found : AngleRun.closer (place + 1) left rest = .ok (some last)) :
        place ≤ last := Nat.le_of_succ_le (ih found)
    unfold AngleRun.closer at found
    split at found
    · exact behind found
    · split at found
      · cases opened with
        | zero => cases found
        | succ depth =>
          rw [closeOne_succ] at found
          dsimp only [bind, Except.bind] at found
          split at found
          · cases found
            exact Nat.le_refl _
          · exact behind found
      · exact behind found

mutual

def parametersAt (tokens : List Token) (place : Nat) : Except Halt Bool :=
  match _token : tokens[place]? with
  | none => .ok false
  | some first =>
    if first.kind = .punct .ellipsis then .ok (place + 1 = tokens.length)
    else if opensParameter first.kind then parameterRestAt tokens place
    else .ok false
termination_by (tokens.length - place, 1)

def parameterRestAt (tokens : List Token) (place : Nat) : Except Halt Bool :=
  match _token : tokens[place]? with
  | none => .ok true
  | some token =>
    if token.kind = .punct .comma then parametersAt tokens (place + 1)
    else if continuesParameter token.kind then parameterRestAt tokens (place + 1)
    else if token.kind = .opening .angle then
      match _run : runEndAt tokens place with
      | .error halt => .error halt
      | .ok none => .ok false
      | .ok (some last) => parameterRestAt tokens (last + 1)
    else if token.kind = .punct .assign then
      match _comma : commaFrom? tokens (place + 1) with
      | some comma => parametersAt tokens (comma + 1)
      | none => .ok true
    else .ok false
termination_by (tokens.length - place, 0)
decreasing_by
  all_goals
    have inside := (List.getElem?_eq_some_iff.1 _token).1
    apply Prod.Lex.left
  · omega
  · omega
  · have := le_of_closer _run
    omega
  · have := le_of_commaFrom? _comma
    omega

end

/-! ## The same answer -/

theorem parameterRest_of_continues {token : Token} {rest : List Token}
    (continues : continuesParameter token.kind = true) :
    parameterRest (token :: rest) = parameterRest rest := by
  have noComma : token.kind ≠ .punct .comma := by
    intro isComma
    rw [isComma] at continues
    cases continues
  rw [parameterRest, if_neg noComma, if_pos continues]

/-- A token that opens a parameter is also one that may follow in it. -/
theorem continues_of_opens {kind : TokenKind} (opens : opensParameter kind = true) :
    continuesParameter kind = true := by
  cases kind with
  | punct punctuator =>
    cases punctuator with
    | doubleColon => rfl
    | _ => cases opens
  | identifier | keyword => rfl
  | _ => cases opens

/-- From this place on, no step goes wrong and the answer is the library's. -/
structure AgreesAt (tokens : List Token) (place : Nat) : Prop where
  start : parametersAt tokens place = .ok (parameters (tokens.drop place))
  rest : parameterRestAt tokens place = .ok (parameterRest (tokens.drop place))

variable {tokens : List Token} {place : Nat}

theorem agreesAt_of_le (outside : tokens.length ≤ place) : AgreesAt tokens place where
  start := by
    rw [parametersAt, List.getElem?_eq_none outside, List.drop_of_length_le outside, parameters]
  rest := by
    rw [parameterRestAt, List.getElem?_eq_none outside, List.drop_of_length_le outside,
      parameterRest]

theorem parameterRestAt_of_later {token : Token} {ahead : List Token}
    (dropped : tokens.drop place = token :: ahead)
    (later : ∀ further, place < further → AgreesAt tokens further) :
    parameterRestAt tokens place = .ok (parameterRest (token :: ahead)) := by
  have atToken : tokens[place]? = some token := by
    rw [← List.head?_drop, dropped, List.head?_cons]
  have behind (length : Nat) : tokens.drop (place + 1 + length) = ahead.drop length := by
    rw [Nat.add_assoc, ← List.drop_drop, dropped, Nat.add_comm, List.drop_succ_cons]
  have next : AgreesAt tokens (place + 1) := later _ (Nat.lt_succ_self place)
  have isNext : tokens.drop (place + 1) = ahead := behind 0
  rw [parameterRestAt, atToken, parameterRest]
  dsimp only
  by_cases isComma : token.kind = .punct .comma
  · rw [if_pos isComma, if_pos isComma, next.start, isNext]
  rw [if_neg isComma, if_neg isComma]
  by_cases continues : continuesParameter token.kind = true
  · rw [if_pos continues, if_pos continues, next.rest, isNext]
  rw [if_neg continues, if_neg continues]
  by_cases opens : token.kind = .opening .angle
  · rw [if_pos opens, if_pos opens, runEndAt_of_opening dropped opens]
    cases AngleRun.length? 0 ahead with
    | none => rfl
    | some length =>
      have behindRun := (later (place + 1 + length) (by omega)).rest
      rw [behind, Nat.add_right_comm] at behindRun
      exact behindRun
  rw [if_neg opens, if_neg opens]
  by_cases isAssign : token.kind = .punct .assign
  · rw [if_pos isAssign, if_pos isAssign, commaFrom?, isNext]
    cases ahead.findIdx? fun next => next.kind = .punct .comma with
    | none => rfl
    | some length =>
      have behindComma := (later (place + 1 + (length + 1)) (by omega)).start
      rw [behind] at behindComma
      exact behindComma
  · rw [if_neg isAssign, if_neg isAssign]

theorem parametersAt_of_rest {token : Token} {ahead : List Token}
    (dropped : tokens.drop place = token :: ahead)
    (rest : parameterRestAt tokens place = .ok (parameterRest (token :: ahead))) :
    parametersAt tokens place = .ok (parameters (token :: ahead)) := by
  have atToken : tokens[place]? = some token := by
    rw [← List.head?_drop, dropped, List.head?_cons]
  rw [parametersAt, atToken, parameters]
  dsimp only
  by_cases isEllipsis : token.kind = .punct .ellipsis
  · rw [if_pos isEllipsis, if_pos isEllipsis]
    have length : tokens.length - place = ahead.length + 1 := by
      rw [← List.length_drop, dropped, List.length_cons]
    congr 1
    rw [Bool.eq_iff_iff, decide_eq_true_iff, List.isEmpty_iff, ← List.length_eq_zero_iff]
    omega
  rw [if_neg isEllipsis, if_neg isEllipsis]
  by_cases opens : opensParameter token.kind = true
  · -- the token is read a second time, as one that follows in the parameter
    rw [if_pos opens, if_pos opens, rest, parameterRest_of_continues (continues_of_opens opens)]
  · rw [if_neg opens, if_neg opens]

theorem agreesAt_of_later (later : ∀ further, place < further → AgreesAt tokens further) :
    AgreesAt tokens place := by
  cases dropped : tokens.drop place with
  | nil => exact agreesAt_of_le (List.drop_eq_nil_iff.1 dropped)
  | cons token ahead =>
    have rest := parameterRestAt_of_later dropped later
    have start := parametersAt_of_rest dropped rest
    rw [← dropped] at rest start
    exact ⟨start, rest⟩

/-- Behind the last token there is nothing to disagree on, and before it the
readings agree if they do from all later places on. -/
theorem agreesAt (tokens : List Token) (place : Nat) : AgreesAt tokens place := by
  induction left : tokens.length - place using Nat.strongRecOn generalizing place with
  | ind count ih =>
    rcases Nat.lt_or_ge place tokens.length with inside | outside
    · refine agreesAt_of_later fun further isLater => ih (tokens.length - further) ?_ further rfl
      omega
    · exact agreesAt_of_le outside

/-- Whether a group looks like the parameters of a function.  The brackets
around them, or what stands in their places, are left out. -/
def parametersByPlaces (group : Token) : Except Halt Bool :=
  if group.nested.length < 2 then .ok false
  else do
    let stop ← back group.nested.length 1
    let inner ← slice group.nested 1 stop
    if inner.isEmpty then .ok true else parametersAt inner 0

theorem nested_cases (group : Token) :
    group.nested.length < 2 ∨
      ∃ first inner last, group.nested = first :: (inner ++ [last]) := by
  cases group.nested with
  | nil => exact .inl (by simp)
  | cons first rest =>
    rcases List.eq_nil_or_concat rest with rfl | ⟨inner, last, rfl⟩
    · exact .inl (by simp)
    · exact .inr ⟨first, inner, last, by rw [List.concat_eq_append]⟩

theorem looksLikeParameters_of_few {group : Token} (few : group.nested.length < 2) :
    looksLikeParameters group = false := by
  unfold looksLikeParameters
  split
  · rename_i nested
    simp [nested] at few
  · rfl

theorem looksLikeParameters_of_nested {group first last : Token} {inner : List Token}
    (nested : group.nested = first :: (inner ++ [last])) :
    looksLikeParameters group = (inner.isEmpty || parameters inner) := by
  unfold looksLikeParameters
  rw [nested]
  cases inner with
  | nil => rfl
  | cons second others =>
    have listed : (second :: others ++ [last]).dropLast = second :: others := List.dropLast_concat
    rw [List.cons_append] at listed
    simp only [List.cons_append, listed]

theorem parametersByPlaces_eq (group : Token) :
    parametersByPlaces group = .ok (looksLikeParameters group) := by
  rcases nested_cases group with few | ⟨first, inner, last, nested⟩
  · rw [parametersByPlaces, if_pos few, looksLikeParameters_of_few few]
  · have length : group.nested.length = inner.length + 1 + 1 := by simp [nested]
    have stop : back group.nested.length 1 = .ok (inner.length + 1) := by
      rw [length, back_of_le (Nat.le_add_left 1 _), Nat.add_sub_cancel]
    have sliced : slice group.nested 1 (inner.length + 1) = .ok inner := by
      rw [slice, if_pos (by omega), nested, List.take_succ_cons, List.take_left,
        List.drop_succ_cons, List.drop_zero]
    have agrees := (agreesAt inner 0).start
    rw [List.drop_zero] at agrees
    rw [parametersByPlaces, if_neg (by omega), stop, looksLikeParameters_of_nested nested]
    simp only [bind, Except.bind, sliced, agrees]
    cases inner <;> rfl

end Signature

end DeclScan
