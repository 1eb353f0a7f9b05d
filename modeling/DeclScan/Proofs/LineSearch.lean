import Mathlib
import DeclScan.Proofs.Line

/-!
# Looking up lines by bisection

The starts of the lines can be kept as a table of 32-bit numbers and an offset
looked up in it by bisection.  Then a start may not fit, a place may be outside
of the table, and a difference below zero.  Here every such step is checked.  The
main statement is `LineIndex.position_exact`: no step fails, the answer is what
counting the line feeds before the offset gives, and positions are in the order
of their offsets.
-/

set_option autoImplicit false

namespace DeclScan

def encoded (text : List Char) : List UInt8 := text.flatMap String.utf8EncodeChar

theorem length_encoded (text : List Char) : (encoded text).length = byteLength text := by
  induction text with
  | nil => rfl
  | cons char rest ih =>
    rw [encoded, List.flatMap_cons, List.length_append, String.length_utf8EncodeChar, byteLength,
      ← ih, encoded]

theorem ofNat_ne_feed {value : Nat} (noFeed : value % 256 ≠ 10) : UInt8.ofNat value ≠ 10 := by
  intro isFeed
  have same := congrArg UInt8.toNat isFeed
  rw [UInt8.toNat_ofNat'] at same
  exact noFeed same

/-- No byte of a longer encoding is that of a line feed. -/
theorem findIdxs_utf8EncodeChar (char : Char) (offset : Nat) :
    (String.utf8EncodeChar char).findIdxs (· = 10) offset =
      if char = '\n' then [offset] else [] := by
  by_cases isFeed : char = '\n'
  · rw [if_pos isFeed, isFeed]
    rfl
  rw [if_neg isFeed, List.findIdxs_eq_nil_iff]
  have noFeed : char.val.toNat ≠ 10 := by
    intro isTen
    exact isFeed (Char.ext (UInt32.toNat.inj isTen))
  have others : ∀ byte ∈ String.utf8EncodeChar char,
      ∃ value, byte = UInt8.ofNat value ∧ value % 256 ≠ 10 := by
    intro byte member
    unfold String.utf8EncodeChar at member
    dsimp only at member
    split at member
    · exact ⟨_, List.mem_singleton.1 member, by omega⟩
    split at member
    · simp only [List.mem_cons, List.not_mem_nil, or_false] at member
      rcases member with rfl | rfl <;> exact ⟨_, rfl, by omega⟩
    split at member
    · simp only [List.mem_cons, List.not_mem_nil, or_false] at member
      rcases member with rfl | rfl | rfl <;> exact ⟨_, rfl, by omega⟩
    · simp only [List.mem_cons, List.not_mem_nil, or_false] at member
      rcases member with rfl | rfl | rfl | rfl <;> exact ⟨_, rfl, by omega⟩
  intro byte member
  obtain ⟨value, rfl, noFeed⟩ := others byte member
  exact decide_eq_false (ofNat_ne_feed noFeed)

/-- What is found among the first items stands at smaller places. -/
theorem findIdxs_take_eq_takeWhile {α : Type} (wanted : α → Bool) (items : List α)
    (start count : Nat) :
    (items.take count).findIdxs wanted start =
      (items.findIdxs wanted start).takeWhile (· < start + count) := by
  induction items generalizing start count with
  | nil => simp
  | cons item rest ih =>
    cases count with
    | zero =>
      rw [List.take_zero, List.findIdxs_nil, eq_comm, List.takeWhile_eq_nil_iff]
      intro some
      have := List.ge_of_mem_findIdxs _ (List.get_mem _ ⟨0, some⟩)
      simp only [decide_eq_true_eq]
      omega
    | succ count =>
      have behind := ih (start + 1) count
      rw [Nat.add_right_comm, Nat.add_assoc] at behind
      rw [List.take_succ_cons, List.findIdxs_cons, List.findIdxs_cons, behind]
      split
      · rw [List.takeWhile_cons_of_pos]
        simp
      · rfl

namespace LineIndex

theorem startsFrom_eq_findIdxs (offset : Nat) (text : List Char) :
    startsFrom offset text = ((encoded text).findIdxs (· = 10) offset).map (· + 1) := by
  induction text generalizing offset with
  | nil => rfl
  | cons char rest ih =>
    rw [encoded, List.flatMap_cons, List.findIdxs_append, findIdxs_utf8EncodeChar,
      String.length_utf8EncodeChar, startsFrom, ih]
    by_cases isNewline : char = '\n'
    · subst isNewline
      rfl
    · rw [if_neg isNewline, if_neg isNewline]
      rfl

def feedsBelow (text : List Char) (offset : Nat) : List Nat :=
  ((encoded text).take offset).findIdxs (· = 10)

theorem mem_feedsBelow_iff {text : List Char} {offset place : Nat} :
    place ∈ feedsBelow text offset ↔ place < offset ∧ (encoded text)[place]? = some 10 := by
  rw [feedsBelow, List.mem_findIdxs_iff_exists_getElem_pos]
  simp only [List.length_take, List.getElem_take, decide_eq_true_eq, List.getElem?_eq_some_iff]
  constructor
  · rintro ⟨inside, isFeed⟩
    exact ⟨by omega, by omega, isFeed⟩
  · rintro ⟨less, inside, isFeed⟩
    exact ⟨by omega, isFeed⟩

theorem position_eq_feedsBelow (text : List Char) (offset : Nat) :
    (ofText text).position offset =
      ⟨(feedsBelow text offset).length,
        offset - ((feedsBelow text offset).getLast?.map (· + 1)).getD 0⟩ := by
  have reached : (startsFrom 0 text).takeWhile (· ≤ offset) =
      (feedsBelow text offset).map (· + 1) := by
    rw [startsFrom_eq_findIdxs, List.takeWhile_map, feedsBelow, findIdxs_take_eq_takeWhile,
      Nat.zero_add]
    rfl
  rw [position, ofText, reached, List.length_map, List.getLastD_eq_getLast?, List.getLast?_map]

end LineIndex

def Position.Before (first second : Position) : Prop :=
  first.line < second.line ∨ first.line = second.line ∧ first.column < second.column

theorem Position.Before.ne {first second : Position} (before : first.Before second) :
    first ≠ second := by
  rintro rfl
  rcases before with less | ⟨_, less⟩
  · exact Nat.lt_irrefl _ less
  · exact Nat.lt_irrefl _ less

namespace LineIndex

theorem lineStart_le (index : LineIndex) (offset : Nat) :
    (index.starts.takeWhile (· ≤ offset)).getLastD 0 ≤ offset := by
  have member := @List.getLastD_mem_cons _ (index.starts.takeWhile (· ≤ offset)) 0
  rcases List.mem_cons.1 member with isFirst | member
  · rw [isFirst]
    exact Nat.zero_le offset
  · have isReached := List.mem_takeWhile_imp member
    exact of_decide_eq_true isReached

/-- Further on, a later line is reached, or the same line goes on. -/
theorem position_before (index : LineIndex) {first second : Nat} (less : first < second) :
    (index.position first).Before (index.position second) := by
  have within : index.starts.takeWhile (· ≤ first) =
      (index.starts.takeWhile (· ≤ second)).takeWhile (· ≤ first) := by
    rw [List.takeWhile_takeWhile]
    congr 1
    funext start
    simp only [decide_eq_true_eq, decide_eq_decide]
    omega
  have reached : index.starts.takeWhile (· ≤ first) <+: index.starts.takeWhile (· ≤ second) := by
    rw [within]
    exact List.takeWhile_prefix _
  rcases Nat.lt_or_ge (index.position first).line (index.position second).line with later | same
  · exact .inl later
  · have sameStarts := reached.eq_of_length_le same
    refine .inr ⟨congrArg List.length sameStarts, ?_⟩
    have starts := lineStart_le index first
    simp only [position, sameStarts] at starts ⊢
    omega

theorem position_injective (index : LineIndex) : Function.Injective index.position := by
  intro first second same
  rcases Nat.lt_trichotomy first second with less | rfl | more
  · exact absurd same (index.position_before less).ne
  · rfl
  · exact absurd same.symm (index.position_before more).ne

/-! ## A table of line starts -/

def add? (left right : UInt32) : Option UInt32 :=
  if left.toNat + right.toNat < 2 ^ 32 then some (left + right) else none

def sub? (left right : UInt32) : Option UInt32 :=
  if right ≤ left then some (left - right) else none

def startTable? (offset : Nat) : List UInt8 → Option (List UInt32)
  | [] => some []
  | byte :: rest =>
    if byte = 10 then
      match add? (.ofNat offset) 1 with
      | some start => (startTable? (offset + 1) rest).map (start :: ·)
      | none => none
    else startTable? (offset + 1) rest

theorem add?_one {offset : Nat} (small : offset + 1 < 2 ^ 32) :
    ∃ start, add? (.ofNat offset) 1 = some start ∧ start.toNat = offset + 1 := by
  have isOffset : (UInt32.ofNat offset).toNat = offset :=
    UInt32.toNat_ofNat_of_lt' (Nat.lt_of_succ_lt small)
  have isOne : (1 : UInt32).toNat = 1 := rfl
  refine ⟨.ofNat offset + 1, ?_, ?_⟩
  · rw [add?, if_pos]
    rw [isOffset, isOne]
    exact small
  · rw [UInt32.toNat_add, isOffset, isOne, Nat.mod_eq_of_lt small]

theorem startTable?_eq {offset : Nat} {bytes : List UInt8}
    (short : offset + bytes.length < 2 ^ 32) :
    ∃ starts, startTable? offset bytes = some starts ∧
      starts.map UInt32.toNat = (bytes.findIdxs (· = 10) offset).map (· + 1) := by
  induction bytes generalizing offset with
  | nil => exact ⟨[], rfl, rfl⟩
  | cons byte rest ih =>
    rw [List.length_cons] at short
    obtain ⟨starts, isTable, places⟩ := ih (show offset + 1 + rest.length < 2 ^ 32 by omega)
    rw [startTable?, List.findIdxs_cons]
    by_cases isFeed : byte = 10
    · obtain ⟨start, isSum, isStart⟩ := add?_one (show offset + 1 < 2 ^ 32 by omega)
      rw [if_pos isFeed, if_pos (by simpa using isFeed), isSum, isTable]
      exact ⟨start :: starts, rfl, by rw [List.map_cons, List.map_cons, isStart, places]⟩
    · rw [if_neg isFeed, if_neg (by simpa using isFeed)]
      exact ⟨starts, isTable, places⟩

/-! ## Bisection -/

inductive Search where
  | found (place : Nat)
  | missing (place : Nat)

/-- Halves the part of the table in which the target may stand. -/
def bisect (table : List UInt32) (target : UInt32) (base size : Nat) : Option Nat :=
  if 1 < size then
    match table[base + size / 2]? with
    | some middle =>
      bisect table target (if target < middle then base else base + size / 2) (size - size / 2)
    | none => none
  else some base
termination_by size
decreasing_by omega

/-- The place of the target, or the place where it is missing. -/
def search (table : List UInt32) (target : UInt32) : Option Search :=
  if table.length = 0 then some (.missing 0)
  else
    match bisect table target 0 table.length with
    | some base =>
      match table[base]? with
      | some start =>
        if start = target then some (.found base)
        else if start < target then some (.missing (base + 1))
        else some (.missing base)
      | none => none
    | none => none

def Search.line? : Search → Option Nat
  | .found place => some place
  | .missing place => if 1 ≤ place then some (place - 1) else none

def lookUp? (table : List UInt32) (offset : UInt32) : Option Position :=
  match (search table offset).bind Search.line? with
  | some line =>
    match (table[line]?).bind (sub? offset) with
    | some column => some ⟨(UInt32.ofNat line).toNat, column.toNat⟩
    | none => none
  | none => none

/-- What is known while the table is halved: the starts up to `base` are not
behind the target, and those behind the part that is left are. -/
structure Narrowed (table : List UInt32) (target : UInt32) (base size : Nat) : Prop where
  nonempty : 0 < size
  inside : base + size ≤ table.length
  reached : ∀ place start, table[place]? = some start → place ≤ base → start ≤ target
  ahead : ∀ place start, table[place]? = some start → base + size ≤ place → target < start

theorem le_of_sorted {table : List UInt32} (sorted : table.Pairwise (· < ·)) {near far : Nat}
    {start later : UInt32} (isStart : table[near]? = some start)
    (isLater : table[far]? = some later) (ordered : near ≤ far) : start ≤ later := by
  obtain ⟨inside, rfl⟩ := List.getElem?_eq_some_iff.1 isStart
  obtain ⟨insideToo, rfl⟩ := List.getElem?_eq_some_iff.1 isLater
  rcases Nat.lt_or_eq_of_le ordered with less | rfl
  · exact UInt32.le_of_lt (List.pairwise_iff_getElem.1 sorted near far inside insideToo less)
  · exact UInt32.le_refl _

theorem Narrowed.step {table : List UInt32} {target middle : UInt32} {base size : Nat}
    (sorted : table.Pairwise (· < ·)) (narrowed : Narrowed table target base size)
    (more : 1 < size) (isMiddle : table[base + size / 2]? = some middle) :
    Narrowed table target (if target < middle then base else base + size / 2)
      (size - size / 2) := by
  obtain ⟨_, inside, reached, ahead⟩ := narrowed
  split
  · rename_i before
    refine ⟨by omega, by omega, reached, ?_⟩
    intro place start isStart behind
    have later := le_of_sorted sorted isMiddle isStart (by omega)
    exact UInt32.lt_of_lt_of_le before later
  · rename_i notBefore
    refine ⟨by omega, by omega, ?_, ?_⟩
    · intro place start isStart near
      have earlier := le_of_sorted sorted isStart isMiddle near
      exact UInt32.le_trans earlier (UInt32.not_lt.1 notBefore)
    · intro place start isStart behind
      exact ahead place start isStart (by omega)

theorem exists_bisect {table : List UInt32} {target : UInt32} (sorted : table.Pairwise (· < ·))
    {base size : Nat} (narrowed : Narrowed table target base size) :
    ∃ place, bisect table target base size = some place ∧ Narrowed table target place 1 := by
  fun_induction bisect table target base size with
  | case1 base size more middle isMiddle ih => exact ih (narrowed.step sorted more isMiddle)
  | case2 base size more outside =>
    have := narrowed.inside
    have := List.getElem?_eq_none_iff.1 outside
    omega
  | case3 base size few =>
    obtain rfl : size = 1 := by
      have := narrowed.nonempty
      omega
    exact ⟨base, rfl, narrowed⟩

theorem narrowed_zero {starts : List UInt32} (target : UInt32) :
    Narrowed (0 :: starts) target 0 (0 :: starts).length where
  nonempty := Nat.succ_pos _
  inside := by rw [Nat.zero_add]
  reached place start isStart near := by
    obtain rfl : place = 0 := Nat.le_zero.1 near
    obtain rfl : 0 = start := Option.some.inj isStart
    exact UInt32.zero_le
  ahead place start isStart behind := by
    obtain ⟨inside, _⟩ := List.getElem?_eq_some_iff.1 isStart
    omega

theorem exists_line?_search {starts : List UInt32} (target : UInt32)
    (sorted : (0 :: starts).Pairwise (· < ·)) :
    ∃ line, (search (0 :: starts) target).bind Search.line? = some line ∧
      Narrowed (0 :: starts) target line 1 := by
  obtain ⟨base, isBase, narrowed⟩ := exists_bisect sorted (narrowed_zero target)
  have inside : base < (0 :: starts).length := narrowed.inside
  have isStart := List.getElem?_eq_getElem inside
  refine ⟨base, ?_, narrowed⟩
  have reached := narrowed.reached base _ isStart (Nat.le_refl base)
  rw [search, if_neg (by simp), isBase]
  simp only [isStart]
  split
  · rfl
  · rename_i notSame
    have less : (0 :: starts)[base] < target := UInt32.lt_of_le_of_ne reached notSame
    rw [if_pos less]
    rfl

/-! ## The same positions -/

section Positions

variable {starts : List UInt32} {offset : UInt32} {line : Nat}

theorem takeWhile_of_narrowed (narrowed : Narrowed (0 :: starts) offset line 1) :
    starts.takeWhile (· ≤ offset) = starts.take line := by
  have reached : ∀ start ∈ starts.take line, decide (start ≤ offset) = true := by
    intro start member
    obtain ⟨place, isStart⟩ := List.mem_iff_getElem?.1 member
    rw [List.getElem?_take] at isStart
    split at isStart
    · rename_i near
      exact decide_eq_true (narrowed.reached (place + 1) start isStart near)
    · cases isStart
  have ahead : (starts.drop line).takeWhile (· ≤ offset) = [] := by
    cases isAhead : starts.drop line with
    | nil => rfl
    | cons start rest =>
      have isStart : starts[line]? = some start := by
        rw [← List.head?_drop, isAhead, List.head?_cons]
      have behind := narrowed.ahead (line + 1) start isStart (Nat.le_refl _)
      exact List.takeWhile_cons_of_neg (by simpa using behind)
  conv_lhs => rw [← List.take_append_drop line starts]
  rw [List.takeWhile_append_of_pos reached, ahead, List.append_nil]

theorem getLastD_take_of_getElem? {start : UInt32} (isStart : (0 :: starts)[line]? = some start) :
    ((starts.take line).map UInt32.toNat).getLastD 0 = start.toNat := by
  cases line with
  | zero =>
    obtain rfl : 0 = start := Option.some.inj isStart
    rfl
  | succ line =>
    have isLast : starts[line]? = some start := isStart
    rw [List.getLastD_eq_getLast?, List.getLast?_map, List.getLast?_take]
    simp [isLast]

theorem lookUp?_eq (sorted : (0 :: starts).Pairwise (· < ·)) (few : starts.length < 2 ^ 32)
    (offset : UInt32) :
    lookUp? (0 :: starts) offset =
      some ((LineIndex.mk (starts.map UInt32.toNat)).position offset.toNat) := by
  obtain ⟨line, isLine, narrowed⟩ := exists_line?_search offset sorted
  have inside : line < (0 :: starts).length := narrowed.inside
  have isStart := List.getElem?_eq_getElem inside
  have reached := narrowed.reached line _ isStart (Nat.le_refl line)
  have lines : (starts.map UInt32.toNat).takeWhile (· ≤ offset.toNat) =
      (starts.take line).map UInt32.toNat := by
    rw [List.takeWhile_map, ← takeWhile_of_narrowed narrowed]
    rfl
  have isLength : (starts.take line).length = line := by
    rw [List.length_cons] at inside
    exact List.length_take_of_le (Nat.lt_succ_iff.1 inside)
  have small : line < 2 ^ 32 := by
    rw [List.length_cons] at inside
    omega
  have isNumber : (UInt32.ofNat line).toNat = line := UInt32.toNat_ofNat_of_lt' small
  rw [lookUp?, isLine]
  simp only [isStart, Option.bind_some, sub?, if_pos reached, position, lines, List.length_map,
    isLength, isNumber, getLastD_take_of_getElem? isStart, UInt32.toNat_sub_of_le _ _ reached]

end Positions

theorem exists_startTable {text : List Char} (short : byteLength text < 2 ^ 32) :
    ∃ starts, startTable? 0 (encoded text) = some starts ∧
      starts.map UInt32.toNat = startsFrom 0 text ∧ (0 :: starts).Pairwise (· < ·) ∧
      starts.length < 2 ^ 32 := by
  have fits : 0 + (encoded text).length < 2 ^ 32 := by
    rw [length_encoded, Nat.zero_add]
    exact short
  obtain ⟨starts, isTable, places⟩ := startTable?_eq fits
  have isStarts : starts.map UInt32.toNat = startsFrom 0 text := by
    rw [places, startsFrom_eq_findIdxs]
  have sorted : ((0 :: starts).map UInt32.toNat).Pairwise (· < ·) := by
    rw [List.map_cons, List.pairwise_cons]
    refine ⟨?_, ?_⟩
    · intro start member
      rw [isStarts] at member
      exact (bounds_of_mem_startsFrom member).1
    · rw [places, List.pairwise_map]
      exact List.pairwise_findIdxs.imp Nat.succ_lt_succ
  refine ⟨starts, isTable, isStarts, (List.pairwise_map.1 sorted).imp UInt32.lt_iff_toNat_lt.2, ?_⟩
  have count := congrArg List.length places
  rw [List.length_map, List.length_map, List.length_findIdxs] at count
  have := @List.countP_le_length _ (· = 10) (encoded text)
  omega

def positionByTable? (text : List Char) (offset : UInt32) : Option Position :=
  (startTable? 0 (encoded text)).bind fun starts => lookUp? (0 :: starts) offset

/-- In every text of less than 4 GiB, at every offset, also behind the end: no
step of looking up the position fails, its line counts the line feeds before the
offset, and its column is what stands behind the last of them.  Offsets keep
their order and are told apart. -/
theorem position_exact {text : List Char} (short : byteLength text < 2 ^ 32) (offset : UInt32) :
    let position := (ofText text).position offset.toNat
    let feeds := feedsBelow text offset.toNat
    let lineStart := (feeds.getLast?.map (· + 1)).getD 0
    positionByTable? text offset = some position ∧
      position.line = feeds.length ∧
      lineStart ≤ offset.toNat ∧ position.column = offset.toNat - lineStart ∧
      ∀ other : UInt32,
        (offset < other → position.Before ((ofText text).position other.toNat)) ∧
        (position = (ofText text).position other.toNat → offset = other) := by
  have exact := position_eq_feedsBelow text offset.toNat
  refine ⟨?_, congrArg Position.line exact, ?_, congrArg Position.column exact, ?_⟩
  · obtain ⟨starts, isTable, isStarts, sorted, few⟩ := exists_startTable short
    rw [positionByTable?, isTable, Option.bind_some, lookUp?_eq sorted few, isStarts, ofText]
  · cases isLast : (feedsBelow text offset.toNat).getLast? with
    | none => exact Nat.zero_le _
    | some last =>
      have member := List.mem_of_getLast? isLast
      exact (mem_feedsBelow_iff.1 member).1
  · intro other
    refine ⟨?_, ?_⟩
    · intro less
      exact position_before _ (UInt32.lt_iff_toNat_lt.1 less)
    · intro same
      exact UInt32.toNat.inj (position_injective _ same)

theorem position_exact_threeLines :
    byteLength "int\n  x\n;".toList < 2 ^ 32 ∧
      positionByTable? "int\n  x\n;".toList 8 = some ⟨2, 0⟩ := by
  have short : byteLength "int\n  x\n;".toList < 2 ^ 32 := by decide
  refine ⟨short, ?_⟩
  rw [(position_exact short 8).1]
  decide

end LineIndex

end DeclScan
