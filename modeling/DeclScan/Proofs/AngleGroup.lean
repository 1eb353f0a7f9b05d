import Mathlib
import DeclScan.Proofs.ParameterPlaces
import DeclScan.Proofs.RoundTrip

/-!
# Condensing angle runs

An angle run can be replaced by one group that holds it.  The run closes all
that it opens, so a search that passes it is as deep behind it as before it, and
every `<` outside is closed by the same token as before or by none.  The main
statement is `Chain.condense_cases`.
-/

set_option autoImplicit false

namespace DeclScan

theorem Token.join_replace {group : Token} {run : List Token} (before after : List Token)
    (isText : group.text = join run) (isNonempty : run ≠ []) :
    join (before ++ group :: after) = join (before ++ run ++ after) := by
  have ahead : join (group :: after) = join (run ++ after) := by
    by_cases isLast : after = []
    · rw [isLast, List.append_nil, join_singleton, isText]
    · rw [← List.singleton_append, join_append (List.cons_ne_nil _ _) isLast,
        join_append isNonempty isLast, join_singleton, isText]
  by_cases isFirst : before = []
  · rw [isFirst]
    exact ahead
  · rw [List.append_assoc, join_append isFirst (List.cons_ne_nil _ _),
      join_append isFirst (List.append_ne_nil_of_left_ne_nil isNonempty _), ahead]

namespace AngleRun

/-- A search passes a run as it passes one token that is no bracket. -/
theorem length?_condensed {run : List Token} {group : Token} (isRun : IsRun run)
    (isGroup : group.kind = .group .angle) (depth : Nat) (front back : List Token) :
    (∃ length ≤ front.length, length? depth (front ++ (run ++ back)) = some length ∧
        length? depth (front ++ group :: back) = some length) ∨
      ∃ left, length? depth (front ++ (run ++ back)) =
          (length? left back).map (· + (front.length + run.length)) ∧
        length? depth (front ++ group :: back) =
          (length? left back).map (· + (front.length + 1)) := by
  rcases length?_append_cases depth front with ⟨length, within, ends⟩ | ⟨left, goesOn⟩
  · exact .inl ⟨length, within, ends _, ends _⟩
  · have single : length? left (group :: back) = (length? left back).map (· + 1) :=
      length?_cons (by simp [isGroup]) (by simp [isGroup])
    refine .inr ⟨left, ?_, ?_⟩
    · rw [goesOn, length?_run_append isRun, Option.map_map]
      congr 1
      funext length
      simp only [Function.comp_apply]
      omega
    · rw [goesOn, single, Option.map_map]
      congr 1
      funext length
      simp only [Function.comp_apply]
      omega

end AngleRun

namespace Chain

open AngleRun (RunsTo)

variable {chain folded : Chain} {start stop place last : Nat}

theorem angleRunEnd?_of_drop {token : Token} {rest : List Token}
    (dropped : chain.live.drop place = token :: rest) (opens : token.kind = .opening .angle) :
    chain.angleRunEnd? place = (AngleRun.length? 0 rest).map (place + ·) := by
  rw [angleRunEnd?, dropped]
  exact if_pos opens

theorem angleRunEnd?_eq_some_iff :
    chain.angleRunEnd? start = some stop ↔ RunsTo chain.live start stop := by
  cases dropped : chain.live.drop start with
  | nil =>
    have outside := List.drop_eq_nil_iff.1 dropped
    rw [angleRunEnd?, dropped]
    refine iff_of_false (by simp) fun runs => ?_
    obtain ⟨before, opening, inner, split, rfl, _⟩ := runs.exists_split
    simp [split] at outside
  | cons token rest =>
    have inside : start < chain.live.length := by
      by_contra outside
      rw [List.drop_of_length_le (Nat.le_of_not_lt outside)] at dropped
      cases dropped
    have isLive : chain.live = chain.live.take start ++ token :: rest := by
      rw [← dropped, List.take_append_drop]
    have isStart : (chain.live.take start).length = start :=
      List.length_take_of_le (Nat.le_of_lt inside)
    have found : RunsTo (chain.live.take start ++ token :: rest) (chain.live.take start).length
      stop ↔ _ := AngleRun.runsTo_iff
    rw [← isLive, isStart] at found
    rw [found, angleRunEnd?, dropped]
    by_cases opens : token.kind = .opening .angle
    · simp [opens, eq_comm]
    · simp [opens]

/-! ## The other runs -/

def Beside (start stop place : Nat) : Prop := place < start ∨ stop < place

/-- Where a token beside the run stands when the run is one token. -/
def placeBeside (start stop place : Nat) : Nat :=
  if place < start then place else place - (stop - start)

theorem angleRunEnd?_of_not_opening {token : Token} {rest : List Token}
    (dropped : chain.live.drop place = token :: rest) (noOpening : token.kind ≠ .opening .angle) :
    chain.angleRunEnd? place = none := by
  rw [angleRunEnd?, dropped]
  exact if_neg noOpening

theorem angleRunEnd?_of_drop_eq {further : Nat}
    (same : folded.live.drop further = chain.live.drop place) :
    ∃ length? : Option Nat, chain.angleRunEnd? place = length?.map (place + ·) ∧
      folded.angleRunEnd? further = length?.map (further + ·) := by
  unfold angleRunEnd?
  rw [same]
  split
  · exact ⟨none, rfl, rfl⟩
  · split
    · exact ⟨_, rfl, rfl⟩
    · exact ⟨none, rfl, rfl⟩

section Condensing

variable {before run after : List Token} {group : Token}

/-- A run that starts before the condensed one ends before it or behind it. -/
theorem angleRunEnd?_of_lt (live : chain.live = before ++ run ++ after)
    (condensed : folded.live = before ++ group :: after) (isRun : AngleRun.IsRun run)
    (isGroup : group.kind = .group .angle) (isStop : before.length + run.length = stop + 1)
    (isBefore : place < before.length) :
    folded.angleRunEnd? place =
        (chain.angleRunEnd? place).map (placeBeside before.length stop) ∧
      ∀ last ∈ chain.angleRunEnd? place, Beside before.length stop last := by
  obtain ⟨front, token, inner, rfl, rfl⟩ : ∃ front token inner,
      before = front ++ token :: inner ∧ front.length = place :=
    ⟨before.take place, before[place], before.drop (place + 1), by simp,
      List.length_take_of_le (Nat.le_of_lt isBefore)⟩
  have dropped : chain.live.drop front.length = token :: (inner ++ (run ++ after)) := by
    simp [live]
  have droppedFolded : folded.live.drop front.length = token :: (inner ++ group :: after) := by
    simp [condensed]
  rw [List.length_append, List.length_cons] at isStop ⊢
  by_cases opens : token.kind = .opening .angle
  · rw [angleRunEnd?_of_drop dropped opens, angleRunEnd?_of_drop droppedFolded opens]
    rcases AngleRun.length?_condensed isRun isGroup 0 inner after with
      ⟨length, within, ends, endsFolded⟩ | ⟨left, ends, endsFolded⟩
    · have isBefore : front.length + length < front.length + (inner.length + 1) := by omega
      rw [ends, endsFolded]
      refine ⟨by simp [placeBeside, isBefore], ?_⟩
      intro last isLast
      obtain rfl : front.length + length = last := by simpa using isLast
      exact .inl isBefore
    · rw [ends, endsFolded]
      cases closed : AngleRun.length? left after with
      | none => simp
      | some length =>
        have closesOne := AngleRun.pos_of_length? closed
        have holdsOne := List.length_pos_iff.2 isRun.ne_nil
        simp only [Option.map_some, Option.some.injEq, Option.mem_def, forall_eq']
        refine ⟨?_, .inr (by omega)⟩
        unfold placeBeside
        split <;> omega
  · rw [angleRunEnd?_of_not_opening dropped opens,
      angleRunEnd?_of_not_opening droppedFolded opens]
    simp

theorem places_behind (group : Token) (isRun : AngleRun.IsRun run)
    (isStop : before.length + run.length = stop + 1) (skipped : Nat) :
    stop + skipped + 1 = (before ++ run).length + skipped ∧
      placeBeside before.length stop (stop + skipped + 1) =
        (before ++ [group]).length + skipped := by
  have holdsOne := List.length_pos_iff.2 isRun.ne_nil
  rw [placeBeside, if_neg (by omega), List.length_append, List.length_append,
    List.length_singleton]
  omega

theorem angleRunEnd?_of_gt (live : chain.live = before ++ run ++ after)
    (condensed : folded.live = before ++ group :: after)
    (isRun : AngleRun.IsRun run) (isStop : before.length + run.length = stop + 1)
    (isBehind : stop < place) :
    folded.angleRunEnd? (placeBeside before.length stop place) =
        (chain.angleRunEnd? place).map (placeBeside before.length stop) ∧
      ∀ last ∈ chain.angleRunEnd? place, Beside before.length stop last := by
  have holdsOne := List.length_pos_iff.2 isRun.ne_nil
  have moved (further : Nat) (isBehind : stop < further) :
      placeBeside before.length stop further = further - (stop - before.length) :=
    if_neg (by omega)
  obtain ⟨skipped, rfl⟩ := Nat.exists_eq_add_of_lt isBehind
  have same : folded.live.drop (placeBeside before.length stop (stop + skipped + 1)) =
      chain.live.drop (stop + skipped + 1) := by
    obtain ⟨isPlace, isMoved⟩ := places_behind group isRun isStop skipped
    rw [isMoved, isPlace, live, condensed, List.append_cons before group after,
      List.drop_length_add_append, List.drop_length_add_append]
  obtain ⟨length?, ends, endsFolded⟩ := angleRunEnd?_of_drop_eq same
  rw [ends, endsFolded]
  cases length? with
  | none => simp
  | some length =>
    simp only [Option.map_some, Option.some.injEq, Option.mem_def, forall_eq']
    rw [moved _ isBehind, moved _ (by omega)]
    exact ⟨by omega, .inr (by omega)⟩

theorem angleRunEnd?_beside (live : chain.live = before ++ run ++ after)
    (condensed : folded.live = before ++ group :: after) (isRun : AngleRun.IsRun run)
    (isGroup : group.kind = .group .angle) (isStop : before.length + run.length = stop + 1)
    (beside : Beside before.length stop place) :
    folded.angleRunEnd? (placeBeside before.length stop place) =
        (chain.angleRunEnd? place).map (placeBeside before.length stop) ∧
      ∀ last ∈ chain.angleRunEnd? place, Beside before.length stop last := by
  rcases beside with isBefore | isBehind
  · have stays : placeBeside before.length stop place = place := if_pos isBefore
    rw [stays]
    exact angleRunEnd?_of_lt live condensed isRun isGroup isStop isBefore
  · exact angleRunEnd?_of_gt live condensed isRun isStop isBehind

theorem get?_beside (live : chain.live = before ++ run ++ after)
    (condensed : folded.live = before ++ group :: after) (isRun : AngleRun.IsRun run)
    (isStop : before.length + run.length = stop + 1)
    (beside : Beside before.length stop place) :
    folded.get? (placeBeside before.length stop place) = chain.get? place := by
  rw [get?, get?, live, condensed]
  rcases beside with isBefore | isBehind
  · rw [placeBeside, if_pos isBefore, List.append_assoc, List.getElem?_append_left isBefore,
      List.getElem?_append_left isBefore]
  · obtain ⟨skipped, rfl⟩ := Nat.exists_eq_add_of_lt isBehind
    obtain ⟨isPlace, isMoved⟩ := places_behind group isRun isStop skipped
    rw [isMoved, isPlace, List.append_cons before group after,
      List.getElem?_append_right (Nat.le_add_right _ _),
      List.getElem?_append_right (Nat.le_add_right _ _), Nat.add_sub_cancel_left,
      Nat.add_sub_cancel_left]

end Condensing

/-! ## Condensing by steps -/

def tokenAt (tokens : List Token) (place : Nat) : Except Halt Token :=
  match tokens[place]? with
  | some token => .ok token
  | none => .error .outside

def insertAt (tokens : List Token) (place : Nat) (token : Token) : Except Halt (List Token) :=
  if place ≤ tokens.length then .ok (tokens.take place ++ token :: tokens.drop place)
  else .error .outside

/-- Takes the run that starts at a place out of the live tokens, stores it as one
group and puts that in.  The answer tells whether there was such a run. -/
def condense (chain : Chain) (start : Nat) : Except Halt (Bool × Chain) :=
  if chain.kindAt? start = some (.opening .angle) then
    match chain.angleRunEnd? start with
    | none => .ok (false, chain)
    | some stop => do
      let run ← slice chain.live start (stop + 1)
      let first ← tokenAt run 0
      let lastPlace ← back run.length 1
      let last ← tokenAt run lastPlace
      let (group, stored) := chain.store (.group .angle) (Token.join run)
        (first.span.cover last.span) first.position run
      let live ← insertAt (chain.live.take start ++ chain.live.drop (stop + 1)) start group
      .ok (true, { stored with live := live })
  else .ok (false, chain)

theorem kindAt?_of_runsTo (runs : RunsTo chain.live start stop) :
    chain.kindAt? start = some (.opening .angle) := by
  obtain ⟨before, run, after, live, isRun, rfl, _⟩ := runs
  obtain ⟨opening, inner, rfl, opens, _⟩ := isRun.exists_cons
  rw [kindAt?, get?, live, List.append_assoc, List.getElem?_append_right (Nat.le_refl _),
    Nat.sub_self]
  exact congrArg some opens

/-- Without a run nothing is changed. -/
theorem condense_of_not_runsTo (noRun : ∀ stop, ¬ RunsTo chain.live start stop) :
    chain.foldAngleRun? start = none ∧ chain.condense start = .ok (false, chain) := by
  have noEnd : chain.angleRunEnd? start = none := by
    rw [Option.eq_none_iff_forall_ne_some]
    intro stop isEnd
    exact noRun stop (angleRunEnd?_eq_some_iff.1 isEnd)
  constructor
  · unfold angleRunEnd? at noEnd
    unfold foldAngleRun?
    split at noEnd
    · rfl
    · split at noEnd
      · rename_i opens
        simp [opens, Option.map_eq_none_iff.1 noEnd]
      · rename_i noOpening
        exact if_neg noOpening
  · unfold condense
    rw [noEnd]
    exact ite_self _

section Condensing

variable {before inner after : List Token} {opening : Token}

def condensed (chain : Chain) (before : List Token) (opening : Token) (inner after : List Token) :
    Chain :=
  { (chain.storeGroup .angle opening inner).2 with
    live := before ++ (chain.storeGroup .angle opening inner).1 :: after }

theorem foldAngleRun?_of_run (live : chain.live = before ++ (opening :: inner) ++ after)
    (isRun : AngleRun.IsRun (opening :: inner)) :
    chain.foldAngleRun? before.length = some (chain.condensed before opening inner after) := by
  obtain ⟨_, _, same, opens, closed⟩ := isRun.exists_cons
  obtain ⟨rfl, rfl⟩ := List.cons.inj same
  have dropped : chain.live.drop before.length = opening :: (inner ++ after) := by
    rw [live, List.append_assoc, List.drop_left, List.cons_append]
  have taken : chain.live.take before.length = before := by
    rw [live, List.append_assoc, List.take_left]
  unfold foldAngleRun?
  rw [dropped]
  simp only [opens, if_true, closed, List.take_left, List.drop_left, taken]
  rfl

theorem condense_of_run (live : chain.live = before ++ (opening :: inner) ++ after)
    (isRun : AngleRun.IsRun (opening :: inner)) :
    chain.condense before.length = .ok (true, chain.condensed before opening inner after) := by
  have runs : RunsTo chain.live before.length (before.length + inner.length) :=
    ⟨before, _, after, live, isRun, rfl, rfl⟩
  have isEnd := angleRunEnd?_eq_some_iff.2 runs
  have front : before.length + inner.length + 1 = (before ++ (opening :: inner)).length := by
    rw [List.length_append, List.length_cons]
    omega
  have sliced : slice chain.live before.length (before.length + inner.length + 1) =
      .ok (opening :: inner) := by
    rw [slice, if_pos, front, live, List.take_left, List.drop_left]
    rw [live, List.length_append, List.length_append, List.length_cons]
    omega
  have isFirst : tokenAt (opening :: inner) 0 = .ok opening := rfl
  have isLast : tokenAt (opening :: inner) inner.length = .ok (inner.getLastD opening) := by
    have atLast : (opening :: inner)[inner.length]? = some (inner.getLastD opening) := by
      rw [List.getLastD_eq_getLast?, ← List.getLast?_cons, List.getLast?_eq_getElem?]
      rfl
    rw [tokenAt, atLast]
  have remaining : chain.live.take before.length ++
      chain.live.drop (before.length + inner.length + 1) = before ++ after := by
    rw [front, live, List.drop_left, List.append_assoc, List.take_left]
  have inserted (group : Token) :
      insertAt (before ++ after) before.length group = .ok (before ++ group :: after) := by
    rw [insertAt, if_pos (by simp), List.take_left, List.drop_left]
  unfold condense
  rw [if_pos (kindAt?_of_runsTo runs), isEnd]
  simp only [sliced, isFirst, isLast, remaining, inserted, bind, Except.bind, List.length_cons,
    back_of_le (Nat.le_add_left 1 _), Nat.add_sub_cancel]
  rfl

end Condensing

/-! ## What condensing keeps -/

/-- The run from `start` to `stop` has become one group, and nothing else has
changed: the text, the leaves, the tokens beside the run and what closes what
among them. -/
structure Condensed (chain : Chain) (start stop : Nat) (group : Token) (folded : Chain) :
    Prop where
  isGroup : group.kind = .group .angle
  isNew : group.id = chain.stored.size
  nested : group.nested = (chain.live.take (stop + 1)).drop start
  stored : folded.stored = chain.stored.push group
  live : folded.live = chain.live.take start ++ group :: chain.live.drop (stop + 1)
  text : folded.join = chain.join
  leaves : Token.expand folded.live = Token.expand chain.live
  beside : ∀ place, Beside start stop place →
    folded.get? (placeBeside start stop place) = chain.get? place
  closed : ∀ place last, Beside start stop place → RunsTo chain.live place last →
    Beside start stop last ∧
      RunsTo folded.live (placeBeside start stop place) (placeBeside start stop last)
  unclosed : ∀ place, Beside start stop place → (∀ last, ¬ RunsTo chain.live place last) →
    ∀ last, ¬ RunsTo folded.live (placeBeside start stop place) last

section Condensing

variable {before inner after : List Token} {opening : Token}

theorem condensed_of_run (live : chain.live = before ++ (opening :: inner) ++ after)
    (isRun : AngleRun.IsRun (opening :: inner)) (isStop : stop = before.length + inner.length) :
    chain.Condensed before.length stop (chain.storeGroup .angle opening inner).1
      (chain.condensed before opening inner after) := by
  have length : before.length + (opening :: inner).length = stop + 1 := by
    rw [isStop, List.length_cons]
    omega
  have front : stop + 1 = (before ++ (opening :: inner)).length := by
    rw [List.length_append, length]
  have isGroup : (chain.storeGroup .angle opening inner).1.kind = .group .angle := rfl
  have isLive : (chain.condensed before opening inner after).live =
      before ++ (chain.storeGroup .angle opening inner).1 :: after := rfl
  have moves (place : Nat) (beside : Beside before.length stop place) :=
    angleRunEnd?_beside live isLive isRun isGroup length beside
  refine
    { isGroup := isGroup
      isNew := rfl
      nested := ?_
      stored := rfl
      live := ?_
      text := ?_
      leaves := ?_
      beside := fun place beside => get?_beside live isLive isRun length beside
      closed := ?_
      unclosed := ?_ }
  · rw [front, live, List.take_left, List.drop_left]
    rfl
  · rw [isLive, front, live, List.drop_left, List.append_assoc, List.take_left]
  · rw [join, join, isLive, live]
    exact Token.join_replace before after rfl (List.cons_ne_nil _ _)
  · rw [isLive, live, List.append_cons before, Token.expand_append, Token.expand_append,
      Token.expand_append, Token.expand_append, Token.expand_group isGroup]
    rfl
  · intro place last beside runs
    obtain ⟨moved, outside⟩ := moves place beside
    have isEnd := angleRunEnd?_eq_some_iff.2 runs
    rw [isEnd] at moved outside
    exact ⟨outside last rfl, angleRunEnd?_eq_some_iff.1 moved⟩
  · intro place beside noRun last runs
    obtain ⟨moved, _⟩ := moves place beside
    rw [angleRunEnd?_eq_some_iff.2 runs] at moved
    obtain ⟨previous, isEnd, _⟩ := Option.map_eq_some_iff.1 moved.symm
    exact noRun previous (angleRunEnd?_eq_some_iff.1 isEnd)

end Condensing

/-- Condensing at a place answers no and changes nothing exactly where no angle
run starts, be it that no `<` stands there or that it is never closed.  Otherwise
the run becomes one group.  No text and no leaf is lost, and every other `<` is
closed by the token that closed it before, or by none as before. -/
theorem condense_cases (chain : Chain) (start : Nat) :
    ((chain.kindAt? start ≠ some (.opening .angle) ∨ ∀ stop, ¬ RunsTo chain.live start stop) ∧
        chain.foldAngleRun? start = none ∧ chain.condense start = .ok (false, chain)) ∨
      ∃ stop group folded, chain.kindAt? start = some (.opening .angle) ∧
        RunsTo chain.live start stop ∧ chain.foldAngleRun? start = some folded ∧
        chain.condense start = .ok (true, folded) ∧ chain.Condensed start stop group folded := by
  by_cases some : ∃ stop, RunsTo chain.live start stop
  · obtain ⟨stop, runs⟩ := some
    have opens := kindAt?_of_runsTo runs
    obtain ⟨before, run, after, live, isRun, rfl, isStop⟩ := id runs
    obtain ⟨opening, inner, rfl⟩ := List.exists_cons_of_ne_nil isRun.ne_nil
    rw [List.length_cons] at isStop
    exact .inr ⟨stop, _, _, opens, runs, foldAngleRun?_of_run live isRun,
      condense_of_run live isRun, condensed_of_run live isRun (by omega)⟩
  · have noRun := not_exists.1 some
    exact .inl ⟨.inr noRun, condense_of_not_runsTo noRun⟩

end Chain

end DeclScan
