import Mathlib
import DeclScan.Text.Position

/-!
# The lines of a text

The position of an offset is told by the text before it: its line feeds are
counted, and the column is what stands behind the last one.
`LineIndex.exists_line` says that the position leads back to its place in the
lines into which the text is split at its line feeds.
-/

set_option autoImplicit false

namespace DeclScan

theorem length_splitOn (text : List Char) :
    (text.splitOn '\n').length = text.count '\n' + 1 := by
  induction text with
  | nil => rfl
  | cons char rest ih =>
    rw [List.splitOn_cons_eq_if_modifyHead]
    by_cases isNewline : char = '\n'
    · simp [isNewline, ih]
    · simp [isNewline, ih]

theorem head?_splitOn (text : List Char) :
    (text.splitOn '\n').head? = some (text.takeWhile (· ≠ '\n')) := by
  induction text with
  | nil => rfl
  | cons char rest ih =>
    rw [List.splitOn_cons_eq_if_modifyHead]
    by_cases isNewline : char = '\n'
    · simp [isNewline]
    · simp [isNewline, List.head?_modifyHead, ih]

theorem exists_lastLine (text : List Char) :
    ∃ earlier current, text = earlier ++ current ∧ '\n' ∉ current ∧
      (earlier = [] ∨ ∃ inner, earlier = inner ++ ['\n']) := by
  induction text with
  | nil => exact ⟨[], [], rfl, List.not_mem_nil, .inl rfl⟩
  | cons char rest ih =>
    obtain ⟨earlier, current, rfl, noNewline, ends⟩ := ih
    rcases ends with rfl | ⟨inner, rfl⟩
    · by_cases isNewline : char = '\n'
      · exact ⟨[char], current, rfl, noNewline, .inr ⟨[], by simp [isNewline]⟩⟩
      · refine ⟨[], char :: current, rfl, ?_, .inl rfl⟩
        simp [noNewline, Ne.symm isNewline]
    · exact ⟨char :: (inner ++ ['\n']), current, rfl, noNewline, .inr ⟨char :: inner, rfl⟩⟩

namespace LineIndex

theorem startsFrom_append (offset : Nat) (front back : List Char) :
    startsFrom offset (front ++ back) =
      startsFrom offset front ++ startsFrom (offset + byteLength front) back := by
  induction front generalizing offset with
  | nil => rfl
  | cons char rest ih =>
    simp only [List.cons_append, startsFrom, ih, byteLength, Nat.add_assoc]
    split <;> rfl

theorem bounds_of_mem_startsFrom {offset start : Nat} {text : List Char}
    (member : start ∈ startsFrom offset text) :
    offset < start ∧ start ≤ offset + byteLength text := by
  induction text generalizing offset with
  | nil => cases member
  | cons char rest ih =>
    have := char.utf8Size_pos
    have later (isLater : start ∈ startsFrom (offset + char.utf8Size) rest) :
        offset < start ∧ start ≤ offset + byteLength (char :: rest) := by
      have := ih isLater
      simp only [byteLength]
      omega
    simp only [startsFrom] at member
    split at member
    · rcases List.mem_cons.1 member with rfl | isLater
      · simp only [byteLength]
        omega
      · exact later isLater
    · exact later member

theorem length_startsFrom (offset : Nat) (text : List Char) :
    (startsFrom offset text).length = text.count '\n' := by
  induction text generalizing offset with
  | nil => rfl
  | cons char rest ih =>
    simp only [startsFrom]
    by_cases isNewline : char = '\n'
    · simp [isNewline, ih]
    · simp [isNewline, ih]

theorem startsFrom_of_not_mem {text : List Char} (noNewline : '\n' ∉ text) (offset : Nat) :
    startsFrom offset text = [] := by
  rw [← List.length_eq_zero_iff, length_startsFrom, List.count_eq_zero]
  exact noNewline

theorem position_ofText (front back : List Char) :
    (ofText (front ++ back)).position (byteLength front) =
      ⟨front.count '\n', byteLength front - (startsFrom 0 front).getLastD 0⟩ := by
  have within : ∀ start ∈ startsFrom 0 front, decide (start ≤ byteLength front) = true := by
    intro start member
    have := bounds_of_mem_startsFrom member
    simp only [decide_eq_true_eq]
    omega
  have behind : (startsFrom (0 + byteLength front) back).takeWhile (· ≤ byteLength front) = [] := by
    rw [List.takeWhile_eq_nil_iff]
    intro some
    have := bounds_of_mem_startsFrom (List.get_mem _ ⟨0, some⟩)
    simp only [decide_eq_true_eq]
    omega
  rw [position, ofText, startsFrom_append, List.takeWhile_append_of_pos within, behind,
    List.append_nil, length_startsFrom]

/-- Behind the last line feed before an offset, the column counts bytes. -/
theorem position_of_lastLine {earlier current : List Char} (back : List Char)
    (noNewline : '\n' ∉ current) (ends : earlier = [] ∨ ∃ inner, earlier = inner ++ ['\n']) :
    (ofText (earlier ++ current ++ back)).position (byteLength (earlier ++ current)) =
      ⟨earlier.count '\n', byteLength current⟩ := by
  have starts : (startsFrom 0 earlier).getLastD 0 = byteLength earlier := by
    rcases ends with rfl | ⟨inner, rfl⟩
    · rfl
    · rw [startsFrom_append, byteLength_append]
      simp [startsFrom, byteLength]
  rw [position_ofText, startsFrom_append, startsFrom_of_not_mem noNewline, List.append_nil, starts,
    List.count_append, List.count_eq_zero_of_not_mem noNewline, byteLength_append,
    Nat.add_sub_cancel_left]
  rfl

theorem exists_line (front back : List Char) :
    ∃ before,
      ((front ++ back).splitOn '\n')[((ofText (front ++ back)).position
          (byteLength front)).line]? = some (before ++ back.takeWhile (· ≠ '\n')) ∧
        byteLength before = ((ofText (front ++ back)).position (byteLength front)).column := by
  obtain ⟨earlier, current, rfl, noNewline, ends⟩ := exists_lastLine front
  have goesOn : ((current ++ back).splitOn '\n')[0]? =
      some (current ++ back.takeWhile (· ≠ '\n')) := by
    have noneEnds : ∀ char ∈ current, decide (char ≠ '\n') = true := by
      intro char member
      simp only [decide_eq_true_eq]
      rintro rfl
      exact noNewline member
    rw [← List.head?_eq_getElem?, head?_splitOn, List.takeWhile_append_of_pos noneEnds]
  rw [position_of_lastLine back noNewline ends]
  refine ⟨current, ?_, rfl⟩
  rcases ends with rfl | ⟨inner, rfl⟩
  · exact goesOn
  · have ahead : inner ++ ['\n'] ++ current ++ back = inner ++ '\n' :: (current ++ back) := by simp
    have isNext : (inner ++ ['\n']).count '\n' = (inner.splitOn '\n').length := by
      rw [length_splitOn, List.count_append]
      rfl
    rw [ahead, List.splitOn_append_cons_self, isNext, List.getElem?_append_right (Nat.le_refl _),
      Nat.sub_self]
    exact goesOn

end LineIndex

end DeclScan
