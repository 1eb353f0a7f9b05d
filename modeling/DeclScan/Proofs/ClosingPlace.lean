import Mathlib
import DeclScan.Proofs.AngleGroup

/-!
# Where a `<` is closed

The place where a `<` is closed can be found by a walk that starts on it with no
bracket open, or by one that starts behind it with one bracket open.  Both check
that they close no more brackets than are open.  No check fails, and both find
the first place up to which as many brackets are closed as opened:
`AngleRun.walks_isLeast`.
-/

set_option autoImplicit false

namespace DeclScan

namespace AngleRun

def through (tokens : List Token) (start place : Nat) : List Token :=
  (tokens.drop start).take (place + 1 - start)

/-- From one place to the other, as many brackets are closed as opened. -/
structure Balances (tokens : List Token) (start place : Nat) : Prop where
  ordered : start ≤ place
  inside : place < tokens.length
  balanced : closed (through tokens start place) = opened (through tokens start place)

def OpensAt (tokens : List Token) (place : Nat) : Prop :=
  tokens[place]?.map Token.kind = some (.opening .angle)

variable {tokens : List Token} {start place stop : Nat}

theorem through_succ (tokens : List Token) (ordered : start ≤ place) :
    through tokens start (place + 1) = through tokens start place ++ tokens[place + 1]?.toList := by
  have length : place + 1 + 1 - start = place + 1 - start + 1 := by omega
  have isPlace : start + (place + 1 - start) = place + 1 := by omega
  rw [through, through, length, List.take_add_one, List.getElem?_drop, isPlace]

theorem through_append (tokens : List Token) {middle : Nat} (behind : start < middle)
    (ordered : middle ≤ stop) :
    through tokens start stop =
      through tokens start (middle - 1) ++ through tokens middle stop := by
  have isMiddle : start + (middle - start) = middle := by omega
  have length : stop + 1 - start = (middle - start) + (stop + 1 - middle) := by omega
  have front : middle - 1 + 1 - start = middle - start := by omega
  rw [through, through, through, length, front, List.take_add, List.drop_drop, isMiddle]

theorem OpensAt.exists_drop (opens : OpensAt tokens start) :
    ∃ opening, tokens.drop start = opening :: tokens.drop (start + 1) ∧
      opening.kind = .opening .angle := by
  obtain ⟨opening, isToken, isOpening⟩ := Option.map_eq_some_iff.1 opens
  obtain ⟨inside, rfl⟩ := List.getElem?_eq_some_iff.1 isToken
  exact ⟨_, List.drop_eq_getElem_cons inside, isOpening⟩

theorem OpensAt.counts (opens : OpensAt tokens start) (length : Nat) :
    closed (through tokens start (start + length)) =
        closed ((tokens.drop (start + 1)).take length) ∧
      opened (through tokens start (start + length)) =
        opened ((tokens.drop (start + 1)).take length) + 1 := by
  obtain ⟨opening, dropped, isOpening⟩ := opens.exists_drop
  have count : start + length + 1 - start = length + 1 := by omega
  rw [through, dropped, count, List.take_succ_cons]
  simp [opened, closed, isOpening]

theorem OpensAt.balances_iff (opens : OpensAt tokens start) (length : Nat) :
    Balances tokens start (start + length) ↔
      length ≤ (tokens.drop (start + 1)).length ∧
        closed ((tokens.drop (start + 1)).take length) =
          opened ((tokens.drop (start + 1)).take length) + 0 + 1 := by
  obtain ⟨closes, opened⟩ := opens.counts length
  have inside : start < tokens.length := by
    obtain ⟨_, isToken, _⟩ := Option.map_eq_some_iff.1 opens
    exact (List.getElem?_eq_some_iff.1 isToken).1
  have fits : length ≤ (tokens.drop (start + 1)).length ↔ start + length < tokens.length := by
    rw [List.length_drop]
    omega
  rw [fits]
  constructor
  · intro balances
    have balanced := balances.balanced
    exact ⟨balances.inside, by omega⟩
  · intro balances
    exact ⟨Nat.le_add_right start length, balances.1, by omega⟩

theorem OpensAt.isLeast_iff (opens : OpensAt tokens start) :
    (length? 0 (tokens.drop (start + 1))).map (start + ·) = some stop ↔
      IsLeast {place | Balances tokens start place} stop := by
  rw [Option.map_eq_some_iff]
  constructor
  · rintro ⟨length, found, rfl⟩
    obtain ⟨fits, balanced, first⟩ := length?_eq_some_iff.1 found
    refine ⟨(opens.balances_iff length).2 ⟨fits, balanced⟩, ?_⟩
    intro place balances
    obtain ⟨shorter, rfl⟩ := Nat.exists_eq_add_of_le balances.ordered
    by_contra before
    exact first shorter (by omega) ((opens.balances_iff shorter).1 balances).2
  · intro isLeast
    obtain ⟨balances, first⟩ := isLeast
    obtain ⟨length, rfl⟩ := Nat.exists_eq_add_of_le balances.ordered
    obtain ⟨fits, balanced⟩ := (opens.balances_iff length).1 balances
    refine ⟨length, length?_eq_some_iff.2 ⟨fits, balanced, ?_⟩, rfl⟩
    intro shorter shortens balancedBefore
    have before := first
      ((opens.balances_iff shorter).2 ⟨by omega, balancedBefore⟩)
    omega

theorem exists_isLeast (balances : Balances tokens start place) :
    ∃ stop ≤ place, IsLeast {place | Balances tokens start place} stop := by
  classical
  have somewhere : ∃ place, Balances tokens start place := ⟨place, balances⟩
  exact ⟨Nat.find somewhere, Nat.find_min' somewhere balances, Nat.find_spec somewhere,
    fun _ other => Nat.find_min' somewhere other⟩

theorem OpensAt.eq_none_iff (opens : OpensAt tokens start) :
    (length? 0 (tokens.drop (start + 1))).map (start + ·) = none ↔
      ∀ place, ¬ Balances tokens start place := by
  rw [Option.eq_none_iff_forall_ne_some]
  constructor
  · intro unended place balances
    obtain ⟨stop, _, isLeast⟩ := exists_isLeast balances
    exact unended stop (opens.isLeast_iff.2 isLeast)
  · intro unbalanced stop ended
    exact unbalanced stop (opens.isLeast_iff.1 ended).1

/-- A token closes one bracket at most, so the count of open ones does not pass
by zero. -/
theorem OpensAt.closed_lt_opened (opens : OpensAt tokens start) (ordered : start ≤ place)
    (inside : place < tokens.length)
    (unbalanced : ∀ earlier ≤ place, ¬ Balances tokens start earlier) :
    closed (through tokens start place) < opened (through tokens start place) := by
  induction place, ordered using Nat.le_induction with
  | base =>
    obtain ⟨closes, opened⟩ := opens.counts 0
    rw [Nat.add_zero] at closes opened
    rw [closes, opened]
    simp [AngleRun.closed]
  | succ place ordered ih =>
    have before := ih (Nat.lt_of_succ_lt inside) fun earlier isEarlier =>
      unbalanced earlier (Nat.le_succ_of_le isEarlier)
    have closesOne : closed (through tokens start (place + 1)) ≤
        closed (through tokens start place) + 1 := by
      rw [through_succ tokens ordered, closed, List.countP_append]
      refine Nat.add_le_add_left (Nat.le_trans List.countP_le_length ?_) _
      exact Option.length_toList_le
    have opensMore : opened (through tokens start place) ≤
        opened (through tokens start (place + 1)) := by
      rw [through_succ tokens ordered, opened, opened, List.countP_append]
      exact Nat.le_add_right _ _
    have uneven : closed (through tokens start (place + 1)) ≠
        opened (through tokens start (place + 1)) := fun balanced =>
      unbalanced _ (Nat.le_refl _) ⟨Nat.le_succ_of_le ordered, inside, balanced⟩
    omega

section Inside

variable {inner : Nat} (opens : OpensAt tokens start)
  (isLeast : IsLeast {place | Balances tokens start place} stop)

include opens isLeast

theorem opened_lt_closed_inside (behind : start < inner) (ordered : inner ≤ stop) :
    opened (through tokens inner stop) < closed (through tokens inner stop) := by
  have inside := isLeast.1.inside
  have stillOpen : closed (through tokens start (inner - 1)) <
      opened (through tokens start (inner - 1)) := by
    refine opens.closed_lt_opened (by omega) (by omega) fun earlier isEarlier balances => ?_
    have := isLeast.2 balances
    omega
  have balanced := isLeast.1.balanced
  rw [through_append tokens behind ordered] at balanced
  simp only [closed, opened, List.countP_append] at balanced stillOpen ⊢
  omega

theorem exists_isLeast_inside (behind : start < inner) (before : inner < stop)
    (opensInner : OpensAt tokens inner) :
    ∃ last < stop, IsLeast {place | Balances tokens inner place} last := by
  have closesMore := opened_lt_closed_inside opens isLeast behind (Nat.le_of_lt before)
  by_contra nowhere
  have unbalanced : ∀ place ≤ stop, ¬ Balances tokens inner place := by
    intro place isPlace balances
    rcases Nat.lt_or_eq_of_le isPlace with isBefore | rfl
    · obtain ⟨last, isLast, least⟩ := exists_isLeast balances
      exact nowhere ⟨last, Nat.lt_of_le_of_lt isLast isBefore, least⟩
    · have := balances.balanced
      omega
  have opensMore := opensInner.closed_lt_opened (Nat.le_of_lt before) isLeast.1.inside unbalanced
  omega

end Inside

/-- No token closes two brackets. -/
theorem eq_of_isLeast {other : Nat} (opens : OpensAt tokens start)
    (opensOther : OpensAt tokens other)
    (isLeast : IsLeast {place | Balances tokens start place} stop)
    (isLeastOther : IsLeast {place | Balances tokens other place} stop) : other = start := by
  have balanced := isLeast.1.balanced
  have balancedOther := isLeastOther.1.balanced
  rcases Nat.lt_trichotomy other start with less | same | more
  · have := opened_lt_closed_inside opensOther isLeastOther less isLeast.1.ordered
    omega
  · exact same
  · have := opened_lt_closed_inside opens isLeast more isLeastOther.1.ordered
    omega

/-! ## The two walks -/

/-- The walk that starts behind the `<`, with one bracket open. -/
def closerBehind (tokens : List Token) (start : Nat) : Except Halt (Option Nat) :=
  closer (start + 1) 1 (tokens.drop (start + 1))

theorem closerBehind_eq (tokens : List Token) (start : Nat) :
    closerBehind tokens start =
      .ok ((length? 0 (tokens.drop (start + 1))).map (start + ·)) :=
  closer_eq start 0 (tokens.drop (start + 1))

theorem OpensAt.runEndAt_eq (opens : OpensAt tokens start) :
    Signature.runEndAt tokens start =
      .ok ((length? 0 (tokens.drop (start + 1))).map (start + ·)) := by
  obtain ⟨_, dropped, isOpening⟩ := opens.exists_drop
  exact Signature.runEndAt_of_opening dropped isOpening

theorem OpensAt.runEndAt_eq_some_iff (opens : OpensAt tokens start) :
    Signature.runEndAt tokens start = .ok (some stop) ↔
      IsLeast {place | Balances tokens start place} stop := by
  rw [opens.runEndAt_eq, Except.ok.injEq, opens.isLeast_iff]

/-- From a `<` on, the walk that starts on it and the one that starts behind it
never close a bracket where none is open, and they find the same place, which is
the one that the search in live tokens finds as well.  It is the first place up to
which as many brackets are closed as opened, and none is found only if there is
no such place.  Before it some bracket is open all along.  A `<` inside of the run
is closed inside of it, and no other `<` is closed by the token at its end. -/
theorem walks_isLeast (opens : OpensAt tokens start) :
    ∃ stop? : Option Nat,
      Signature.runEndAt tokens start = .ok stop? ∧ closerBehind tokens start = .ok stop? ∧
      (length? 0 (tokens.drop (start + 1))).map (start + ·) = stop? ∧
      (∀ chain : Chain, chain.live = tokens → chain.angleRunEnd? start = stop?) ∧
      (∀ stop, stop? = some stop ↔ IsLeast {place | Balances tokens start place} stop) ∧
      (stop? = none ↔ ∀ place, ¬ Balances tokens start place) ∧
      (∀ place, start ≤ place → place < tokens.length → (∀ stop ∈ stop?, place < stop) →
        closed (through tokens start place) < opened (through tokens start place)) ∧
      ∀ stop ∈ stop?,
        (∀ inner, start < inner → inner < stop → OpensAt tokens inner →
          ∃ last < stop, Signature.runEndAt tokens inner = .ok (some last)) ∧
        ∀ other, OpensAt tokens other → Signature.runEndAt tokens other = .ok (some stop) →
          other = start := by
  obtain ⟨opening, dropped, isOpening⟩ := opens.exists_drop
  refine ⟨_, opens.runEndAt_eq, closerBehind_eq tokens start, rfl, ?_, fun _ => opens.isLeast_iff,
    opens.eq_none_iff, ?_, ?_⟩
  · rintro chain rfl
    exact Chain.angleRunEnd?_of_drop dropped isOpening
  · intro place ordered inside before
    refine opens.closed_lt_opened ordered inside fun earlier isEarlier balances => ?_
    obtain ⟨stop, isStop, isLeast⟩ := exists_isLeast balances
    have := before stop (opens.isLeast_iff.2 isLeast)
    omega
  · intro stop isStop
    have isLeast := opens.isLeast_iff.1 isStop
    constructor
    · intro inner behind isBefore opensInner
      obtain ⟨last, isLast, least⟩ :=
        exists_isLeast_inside opens isLeast behind isBefore opensInner
      exact ⟨last, isLast, opensInner.runEndAt_eq_some_iff.2 least⟩
    · intro other opensOther found
      exact eq_of_isLeast opens opensOther isLeast (opensOther.runEndAt_eq_some_iff.1 found)

def mapText : String := "map<int, vector<int>> m;"

def mapLexemes : List Lexeme :=
  [⟨.word, "map", .ofLength 0 3⟩, ⟨.opening .angle, "<", .ofLength 3 1⟩,
    ⟨.word, "int", .ofLength 4 3⟩, ⟨.punct .comma, ",", .ofLength 7 1⟩,
    ⟨.word, "vector", .ofLength 9 6⟩, ⟨.opening .angle, "<", .ofLength 15 1⟩,
    ⟨.word, "int", .ofLength 16 3⟩, ⟨.closing .angle, ">", .ofLength 19 1⟩,
    ⟨.closing .angle, ">", .ofLength 20 1⟩, ⟨.word, "m", .ofLength 22 1⟩,
    ⟨.punct .semicolon, ";", .ofLength 23 1⟩]

def mapChain : Chain := .ofLexemes .cpp (.ofText mapText.toList) mapLexemes

theorem tokenize_mapText : tokenize mapText .cpp = .ok mapChain :=
  tokenize_of_lex (by cbv)

theorem opensAt_mapChain : OpensAt mapChain.live 1 ∧ OpensAt mapChain.live 5 := by
  unfold OpensAt
  decide +kernel

theorem walks_isLeast_mapChain :
    tokenize mapText .cpp = .ok mapChain ∧ OpensAt mapChain.live 1 ∧
      Signature.runEndAt mapChain.live 1 = .ok (some 8) ∧
      closerBehind mapChain.live 1 = .ok (some 8) ∧ mapChain.angleRunEnd? 1 = some 8 ∧
      IsLeast {place | Balances mapChain.live 1 place} 8 ∧
      ∃ last < 8, Signature.runEndAt mapChain.live 5 = .ok (some last) := by
  obtain ⟨opens, opensInner⟩ := opensAt_mapChain
  obtain ⟨stop?, onBracket, behind, counted, searched, least, _, _, inside⟩ :=
    walks_isLeast opens
  have isStop : stop? = some 8 := by
    rw [← counted]
    decide +kernel
  subst isStop
  exact ⟨tokenize_mapText, opens, onBracket, behind, searched mapChain rfl, (least 8).1 rfl,
    (inside 8 rfl).1 5 (by decide) (by decide) opensInner⟩

end AngleRun

end DeclScan
