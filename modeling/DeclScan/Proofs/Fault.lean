import Mathlib
import DeclScan.Proofs.Tiling
import DeclScan.Scan

/-!
# Where a text cannot be read

Reading stops at the first front that the rules refuse: one that they take as a
fault, or one character that none of them takes.  A front that the rules take
is the longest one also where less text follows it.  So all that stands before
the fault can be read without it, and all that stands behind the fault plays no
part.  The main statement is `lex_error`.
-/

set_option autoImplicit false

namespace DeclScan

namespace LiteralKind

def quote : LiteralKind → Char
  | .string => '"'
  | .character => '\''

theorem eq_of_name_eq {first second : LiteralKind} (same : first.name = second.name) :
    first = second := by
  cases first <;> cases second <;> simp [name] at same ⊢

end LiteralKind

namespace LexFault

theorem span_ofText (offset : Nat) (text : List Char) :
    (ofText offset text).span = .ofLength offset (byteLength text) := by
  unfold ofText
  split <;> rfl

theorem eq_of_ofText_eq_unexpected {offset : Nat} {text : List Char} {given : String} {span : Span}
    (isUnexpected : ofText offset text = .unexpected given span) : given = String.ofList text := by
  unfold ofText at isUnexpected
  split at isUnexpected
  · cases isUnexpected
  · cases isUnexpected
  · injection isUnexpected with isText _
    exact isText.symm

theorem ofText_unterminated_iff {offset : Nat} {text : List Char} {literal : LiteralKind} :
    (∃ span, ofText offset text = .unterminated literal span) ↔
      text.head? = some literal.quote := by
  unfold ofText
  split
  · cases literal <;> simp [LiteralKind.quote]
  · cases literal <;> simp [LiteralKind.quote]
  · rename_i noString noCharacter
    constructor
    · rintro ⟨_, isUnterminated⟩
      cases isUnterminated
    · intro isQuote
      obtain ⟨rest, rfl⟩ := List.head?_eq_some_iff.1 isQuote
      cases literal with
      | string => exact absurd rfl (noString rest)
      | character => exact absurd rfl (noCharacter rest)

theorem name_unterminated_iff {offset : Nat} {text : List Char} (literal : LiteralKind) :
    (∃ found span, ofText offset text = .unterminated found span ∧ found.name = literal.name) ↔
      text.head? = some literal.quote := by
  rw [← ofText_unterminated_iff]
  constructor
  · rintro ⟨found, span, isFault, same⟩
    exact ⟨span, LiteralKind.eq_of_name_eq same ▸ isFault⟩
  · rintro ⟨span, isFault⟩
    exact ⟨literal, span, isFault, rfl⟩

end LexFault

namespace Rule

/-- With this rest behind it, the front of a text stops the reading. -/
inductive Refuses : List Char → List Char → Prop where
  | fault {text rest : List Char} : Takes .fault text rest → Refuses text rest
  | unknown {char : Char} {rest : List Char} : longest? char rest = none → Refuses [char] rest

variable {reading : Reading} {char : Char} {text rest more : List Char}

theorem longest?_eq_none_of_append (absent : longest? char (rest ++ more) = none) :
    longest? char rest = none := by
  refine longestOf_eq_none_iff.2 fun rule member front isFront => ?_
  exact longestOf_eq_none_iff.1 absent rule member front (isFront.trans (List.prefix_append _ _))

theorem Refuses.shorter (refused : Refuses text (rest ++ more)) : Refuses text rest := by
  cases refused with
  | fault taken => exact .fault taken.shorter
  | unknown absent => exact .unknown (longest?_eq_none_of_append absent)

theorem Refuses.ne_nil (refused : Refuses text rest) : text ≠ [] := by
  cases refused with
  | fault taken => exact taken.ne_nil
  | unknown => exact List.cons_ne_nil _ _

end Rule

namespace Lexeme

open Rule

variable {reading : Reading} {offset : Nat} {text front rest : List Char} {fault : LexFault}

theorem readFrom_of_refuses (refused : Refuses front rest) :
    readFrom offset (front ++ rest) = .error (.ofText offset front) := by
  cases refused with
  | fault taken =>
    cases front with
    | nil => exact absurd rfl taken.ne_nil
    | cons char front =>
      rw [List.cons_append, readFrom, longest?_append_iff.2 taken]
      simp only [List.take_left]
  | unknown absent =>
    rw [List.singleton_append, readFrom, absent]

theorem readFrom_ok_of_takes (taken : Takes reading front rest) (noFault : reading ≠ .fault)
    (read : ∃ lexemes, readFrom (offset + byteLength front) rest = .ok lexemes) :
    ∃ lexemes, readFrom offset (front ++ rest) = .ok lexemes := by
  obtain ⟨lexemes, read⟩ := read
  cases reading with
  | fault => exact absurd rfl noFault
  | blank => exact ⟨lexemes, by rw [readFrom_of_blank taken, read]⟩
  | lexeme kind => exact ⟨_, by rw [readFrom_of_lexeme taken, read]; rfl⟩

theorem readFrom_error_of_takes (taken : Takes reading front rest) (noFault : reading ≠ .fault)
    (failed : readFrom (offset + byteLength front) rest = .error fault) :
    readFrom offset (front ++ rest) = .error fault := by
  cases reading with
  | fault => exact absurd rfl noFault
  | blank => rw [readFrom_of_blank taken, failed]
  | lexeme kind =>
    rw [readFrom_of_lexeme taken, failed]
    rfl

theorem readFrom_error_cases (failed : readFrom offset text = .error fault) :
    (∃ front rest, text = front ++ rest ∧ Refuses front rest ∧ fault = .ofText offset front) ∨
      ∃ reading front rest, text = front ++ rest ∧ Takes reading front rest ∧
        reading ≠ .fault ∧ readFrom (offset + byteLength front) rest = .error fault := by
  cases text with
  | nil =>
    rw [readFrom_nil] at failed
    cases failed
  | cons char text =>
    rw [readFrom] at failed
    split at failed
    · rename_i absent
      exact .inl ⟨[char], text, rfl, .unknown absent, (Except.error.inj failed).symm⟩
    · rename_i reading length longest
      obtain ⟨front, rest, rfl, rfl, taken⟩ := longest?_eq_some longest
      simp only [List.take_left, List.drop_left] at failed
      cases reading with
      | fault =>
        exact .inl ⟨char :: front, rest, rfl, .fault taken, (Except.error.inj failed).symm⟩
      | blank => exact .inr ⟨.blank, char :: front, rest, rfl, taken, by simp, failed⟩
      | lexeme kind =>
        dsimp only at failed
        split at failed
        · cases failed
        · rename_i failedRest
          obtain rfl := Except.error.inj failed
          exact .inr ⟨.lexeme kind, char :: front, rest, rfl, taken, by simp, failedRest⟩

/-- A text stops being read at the offending part: what precedes it can be read,
and the fault is there whatever follows. -/
structure StopsAt (offset : Nat) (text : List Char) (fault : LexFault)
    (before offending after : List Char) : Prop where
  whole : text = before ++ (offending ++ after)
  read : ∃ lexemes, readFrom offset before = .ok lexemes
  refused : Refuses offending after
  isFault : fault = .ofText (offset + byteLength before) offending
  failed : readFrom offset (before ++ offending) = .error fault

theorem StopsAt.behind {before offending after : List Char}
    (stops : StopsAt (offset + byteLength front) rest fault before offending after)
    (taken : Takes reading front rest) (noFault : reading ≠ .fault) :
    StopsAt offset (front ++ rest) fault (front ++ before) offending after := by
  obtain ⟨rfl, read, refused, isFault, failed⟩ := stops
  refine ⟨(List.append_assoc ..).symm, ?_, refused, ?_, ?_⟩
  · exact readFrom_ok_of_takes taken.shorter noFault read
  · rw [byteLength_append, ← Nat.add_assoc]
    exact isFault
  · rw [List.append_assoc]
    rw [← List.append_assoc] at taken
    exact readFrom_error_of_takes taken.shorter noFault failed

theorem exists_stopsAt (failed : readFrom offset text = .error fault) :
    ∃ before offending after, StopsAt offset text fault before offending after := by
  induction size : text.length using Nat.strongRecOn generalizing offset text with
  | ind length ih =>
    rcases readFrom_error_cases failed with
      ⟨front, rest, rfl, refused, rfl⟩ | ⟨reading, front, rest, rfl, taken, noFault, failedRest⟩
    · have alone : Refuses front ([] ++ rest) := refused
      have failedAlone : readFrom offset (front ++ []) = _ := readFrom_of_refuses alone.shorter
      rw [List.append_nil] at failedAlone
      exact ⟨[], front, rest, rfl, ⟨[], readFrom_nil⟩, refused, rfl, failedAlone⟩
    · have shorter : rest.length < length := by
        have := List.length_pos_iff.2 taken.ne_nil
        rw [← size, List.length_append]
        omega
      obtain ⟨before, offending, after, stops⟩ := ih rest.length shorter failedRest rfl
      exact ⟨front ++ before, offending, after, stops.behind taken noFault⟩

end Lexeme

/-! ## Whole texts -/

theorem scanStatement_of_error {source : String} {language : Language} {fault : LexFault}
    (failed : lex source = .error fault) :
    tokenize source language = .error fault ∧
      ∀ (isHeader : Bool) (σ : Type) (sink : Sink σ) (scopes : ScopeStack) (state : σ),
        scanStatement sink ⟨language, isHeader⟩ source scopes state = .error fault := by
  have tokenized : tokenize source language = .error fault := by
    rw [tokenize, failed]
  refine ⟨tokenized, fun isHeader σ sink scopes state => ?_⟩
  rw [scanStatement, tokenized]

/-- The fault of a text is that of a nonempty part of it.  All that precedes
this part can be read, and the fault is the same if nothing follows it.
Unexpected input is given as it stands in the text, and a literal is broken
exactly where the part starts with its quote.  Neither tokens nor variables come
out of such a text, in whatever language, file and scopes. -/
theorem lex_error {source : String} {fault : LexFault} (failed : lex source = .error fault) :
    (∃ before offending after : String, source = before ++ offending ++ after ∧
      fault.span.start < fault.span.stop ∧ fault.span.start = before.utf8ByteSize ∧
      fault.span.stop = (before ++ offending).utf8ByteSize ∧
      (∃ lexemes, lex before = .ok lexemes) ∧ lex (before ++ offending) = .error fault ∧
      (∀ text span, fault = .unexpected text span → text = offending) ∧
      ((∃ literal span, fault = .unterminated literal span ∧ literal.name = "string") ↔
        offending.toList.head? = some '"') ∧
      ((∃ literal span, fault = .unterminated literal span ∧ literal.name = "character") ↔
        offending.toList.head? = some '\'')) ∧
      ∀ language, tokenize source language = .error fault ∧
        ∀ (isHeader : Bool) (σ : Type) (sink : Sink σ) (scopes : ScopeStack) (state : σ),
          scanStatement sink ⟨language, isHeader⟩ source scopes state = .error fault := by
  refine ⟨?_, fun language => scanStatement_of_error failed⟩
  obtain ⟨before, offending, after, whole, read, refused, rfl, failedThere⟩ :=
    Lexeme.exists_stopsAt failed
  have some := byteLength_pos refused.ne_nil
  rw [Nat.zero_add] at failedThere ⊢
  have span := LexFault.span_ofText (byteLength before) offending
  have start := congrArg Span.start span
  have stop := congrArg Span.stop span
  simp only [Span.ofLength] at start stop
  refine ⟨String.ofList before, String.ofList offending, String.ofList after, ?_, ?_, ?_, ?_, ?_,
    ?_, ?_, ?_, ?_⟩
  · rw [← String.toList_inj, whole]
    simp
  · omega
  · rw [start, ← byteLength_toList, String.toList_ofList]
  · rw [stop, ← byteLength_toList, String.toList_append, String.toList_ofList,
      String.toList_ofList, byteLength_append]
  · rw [lex, String.toList_ofList]
    exact read
  · rw [lex, String.toList_append, String.toList_ofList, String.toList_ofList]
    exact failedThere
  · intro text span isUnexpected
    exact LexFault.eq_of_ofText_eq_unexpected isUnexpected
  · rw [String.toList_ofList]
    exact LexFault.name_unterminated_iff .string
  · rw [String.toList_ofList]
    exact LexFault.name_unterminated_iff .character

/-- What looks like an encoding is a word, so the fault is at the first quote. -/
def brokenText : String := "a/*é*/=L'';"

theorem lex_brokenText :
    lex brokenText = .error (.unterminated .character (.ofLength 9 1)) := by
  cbv

theorem lex_error_brokenText :
    lex brokenText = .error (.unterminated .character (.ofLength 9 1)) ∧
      (∃ before offending after : String, brokenText = before ++ offending ++ after ∧
        9 = before.utf8ByteSize ∧ 10 = (before ++ offending).utf8ByteSize ∧
        (∃ lexemes, lex before = .ok lexemes) ∧
        lex (before ++ offending) = .error (.unterminated .character (.ofLength 9 1)) ∧
        offending.toList.head? = some '\'') ∧
      tokenize brokenText .c = .error (.unterminated .character (.ofLength 9 1)) ∧
      scanStatement Collector.sink ⟨.cpp, true⟩ brokenText .empty (.empty TagKind.all) =
        .error (.unterminated .character (.ofLength 9 1)) := by
  obtain ⟨⟨before, offending, after, whole, _, start, stop, read, failed, _, _, character⟩, refused⟩ :=
    lex_error lex_brokenText
  refine ⟨lex_brokenText, ⟨before, offending, after, whole, start, stop, read, failed, ?_⟩,
    (refused .c).1, (refused .cpp).2 true _ _ _ _⟩
  exact character.1 ⟨.character, _, rfl, rfl⟩

end DeclScan
