import DeclScan.Lexeme.Reading
import DeclScan.Proofs.LongestRule

/-!
# One step of reading

Reading goes on behind the front that the rules take.  A blank leaves nothing,
a lexeme comes before those of the rest, and a text that can be read is empty
or starts with one of the two.
-/

set_option autoImplicit false

namespace DeclScan

open Rule

theorem Rule.matchesNothing_eq_false : ∀ rule ∈ all, rule.pattern.matchesNothing = false := by
  decide

theorem Rule.Takes.ne_nil {reading : Reading} {text rest : List Char}
    (taken : Takes reading text rest) : text ≠ [] := by
  rintro rfl
  obtain ⟨rule, member, _, matched⟩ := taken.first.exists_rule
  rw [← Pattern.matchesNothing_iff, matchesNothing_eq_false rule member] at matched
  cases matched

namespace Lexeme

variable {offset : Nat} {text rest : List Char} {lexemes : List Lexeme}

def ofText (kind : LexemeKind) (offset : Nat) (text : List Char) : Lexeme :=
  ⟨kind, String.ofList text, .ofLength offset (byteLength text)⟩

theorem readFrom_nil : readFrom offset [] = .ok [] := by
  rw [readFrom]

theorem readFrom_of_blank (taken : Takes .blank text rest) :
    readFrom offset (text ++ rest) = readFrom (offset + byteLength text) rest := by
  cases text with
  | nil => exact absurd rfl taken.ne_nil
  | cons char front =>
    rw [List.cons_append, readFrom, longest?_append_iff.2 taken]
    simp only [List.take_left, List.drop_left]

theorem readFrom_of_lexeme {kind : LexemeKind} (taken : Takes (.lexeme kind) text rest) :
    readFrom offset (text ++ rest) =
      (readFrom (offset + byteLength text) rest).map (ofText kind offset text :: ·) := by
  cases text with
  | nil => exact absurd rfl taken.ne_nil
  | cons char front =>
    rw [List.cons_append, readFrom, longest?_append_iff.2 taken]
    simp only [List.take_left, List.drop_left]
    cases readFrom (offset + byteLength (char :: front)) rest <;> rfl

theorem readFrom_cases (read : readFrom offset text = .ok lexemes) :
    (text = [] ∧ lexemes = []) ∨
      (∃ front rest, text = front ++ rest ∧ Takes .blank front rest ∧
        readFrom (offset + byteLength front) rest = .ok lexemes) ∨
      ∃ kind front rest others, text = front ++ rest ∧ Takes (.lexeme kind) front rest ∧
        lexemes = ofText kind offset front :: others ∧
        readFrom (offset + byteLength front) rest = .ok others := by
  cases text with
  | nil =>
    rw [readFrom_nil] at read
    exact .inl ⟨rfl, (Except.ok.inj read).symm⟩
  | cons char text =>
    rw [readFrom] at read
    split at read
    · cases read
    · rename_i reading length longest
      obtain ⟨front, rest, rfl, rfl, taken⟩ := longest?_eq_some longest
      simp only [List.take_left, List.drop_left] at read
      cases reading with
      | fault => cases read
      | blank => exact .inr (.inl ⟨char :: front, rest, rfl, taken, read⟩)
      | lexeme kind =>
        dsimp only at read
        split at read
        · rename_i others readRest
          obtain rfl := Except.ok.inj read
          exact .inr (.inr ⟨kind, char :: front, rest, others, rfl, taken, rfl, readRest⟩)
        · cases read

end Lexeme

end DeclScan
