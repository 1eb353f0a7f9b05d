import Mathlib
import DeclScan.Proofs.Fault
import DeclScan.Proofs.Spacing

/-!
# Broken literals

A literal whose end is missing is read as one fault, from its encoding to the
last of its contents.  The fault is named after the first character of its text,
so an encoding hides from it that the text is a literal.  The main statement is
`lex_brokenLiteral`.
-/

set_option autoImplicit false

namespace DeclScan

open Pattern

/-- Where the contents of a literal cannot go on and no quote ends them: nothing
or a line feed follows, or a backslash that forms no pair. -/
inductive Breaks : List Char → Prop where
  | atEnd : Breaks []
  | atNewline {rest : List Char} : Breaks ('\n' :: rest)
  | loneBackslash : Breaks ['\\']
  | brokenPair {rest : List Char} : Breaks ('\\' :: '\n' :: rest)

/-- A literal of this kind whose end is missing, with what follows it.  A quote
that opens a character literal has something behind it. -/
structure BrokenLiteral (literal : LiteralKind) (encoding contents rest : List Char) : Prop where
  isEncoding : encoding ∈ encodings
  inQuotes : LiteralContents literal.quote contents
  filled : literal = .character → contents ≠ []
  breaks : Breaks rest

/-- Having read the front, which holds no fault, reading stands before the
rest. -/
inductive Lexeme.Passes : List Char → List Char → Prop where
  | start {rest : List Char} : Passes [] rest
  | step {reading : Reading} {piece front rest : List Char} :
      Rule.Takes reading piece (front ++ rest) → reading ≠ .fault → Passes front rest →
      Passes (piece ++ front) rest

theorem Breaks.eq_nil {quote : Char} {shorter last rest : List Char} (breaks : Breaks rest)
    (noEscape : quote ≠ '\\') (noNewline : quote ≠ '\n') (inQuotes : LiteralContents quote shorter)
    (ends : last = [] ∨ last = [quote]) (isFront : shorter ++ last <+: rest) :
    shorter ++ last = [] := by
  cases inQuotes with
  | nil =>
    rcases ends with rfl | rfl
    · rfl
    · obtain ⟨behind, whole⟩ := isFront
      cases breaks with
      | atEnd => cases whole
      | atNewline => exact absurd (List.cons.inj whole).1 noNewline
      | loneBackslash => exact absurd (List.cons.inj whole).1 noEscape
      | brokenPair => exact absurd (List.cons.inj whole).1 noEscape
  | plain _ noBackslash isNoNewline _ =>
    obtain ⟨behind, whole⟩ := isFront
    cases breaks with
    | atEnd => cases whole
    | atNewline => exact absurd (List.cons.inj whole).1 isNoNewline
    | loneBackslash => exact absurd (List.cons.inj whole).1 noBackslash
    | brokenPair => exact absurd (List.cons.inj whole).1 noBackslash
  | escape isNoNewline _ =>
    obtain ⟨behind, whole⟩ := isFront
    cases breaks with
    | atEnd => cases whole
    | atNewline => simp at whole
    | loneBackslash => simp at whole
    | brokenPair => exact absurd (List.cons.inj (List.cons.inj whole).2).1 isNoNewline

/-! ## The rules for literals -/

namespace LiteralKind

variable {literal : LiteralKind} {text : List Char}

theorem quote_cases (literal : LiteralKind) : literal.quote = '"' ∨ literal.quote = '\'' := by
  cases literal with
  | string => exact .inl rfl
  | character => exact .inr rfl

theorem quote_ne_backslash (literal : LiteralKind) : literal.quote ≠ '\\' := by
  cases literal <;> decide

theorem quote_ne_newline (literal : LiteralKind) : literal.quote ≠ '\n' := by
  cases literal <;> decide

def closedPattern : LiteralKind → Pattern
  | .string => Rule.string
  | .character => Rule.character

def openPattern : LiteralKind → Pattern
  | .string => Rule.openString
  | .character => Rule.openCharacter

theorem exists_openRule (literal : LiteralKind) :
    ∃ rule ∈ Rule.all, rule.pattern = literal.openPattern := by
  cases literal with
  | string => exact ⟨⟨.fault, Rule.openString⟩, by decide, rfl⟩
  | character => exact ⟨⟨.fault, Rule.openCharacter⟩, by decide, rfl⟩

theorem startsLiteral_of_closedPattern (matched : Matches literal.closedPattern text) :
    ∃ encoding contents, StartsLiteral literal.quote text encoding contents [literal.quote] := by
  cases literal with
  | string => exact startsLiteral_of_string matched
  | character => exact startsLiteral_of_character matched

theorem startsLiteral_of_openPattern (matched : Matches literal.openPattern text) :
    ∃ encoding contents, StartsLiteral literal.quote text encoding contents [] := by
  cases literal with
  | string => exact startsLiteral_of_openString matched
  | character => exact startsLiteral_of_openCharacter matched

theorem matches_openPattern {encoding contents : List Char} (isEncoding : encoding ∈ encodings)
    (inQuotes : LiteralContents literal.quote contents)
    (filled : literal = .character → contents ≠ []) :
    Matches literal.openPattern (encoding ++ literal.quote :: contents) := by
  have encoded := matches_optional_encoding_iff.2 isEncoding
  cases literal with
  | string =>
    have opened : Matches (exactly "\"") ['"'] := matches_exactly_iff.2 rfl
    exact .seq encoded (.seq opened (matches_literalItems_iff.2 inQuotes))
  | character =>
    have opened : Matches (exactly "'") ['\''] := matches_exactly_iff.2 rfl
    rcases matches_optional_iff.1 encoded with isEncoded | rfl
    · exact .right (.seq isEncoded
        (.seq opened (matches_oneOrMore_literalItem_iff.2 ⟨filled rfl, inQuotes⟩)))
    · have bare : Matches (seq (exactly "'") (many (Rule.literalItem '\'')))
          (['\''] ++ contents) := .seq opened (matches_literalItems_iff.2 inQuotes)
      exact .left bare

end LiteralKind

namespace Rule

variable {literal : LiteralKind} {encoding contents rest : List Char}

theorem after_quote {rule : Rule} (member : rule ∈ all) (isEncoding : encoding ∈ encodings)
    (literal : LiteralKind) :
    rule.pattern.after (encoding ++ [literal.quote]) = never ∨
      rule.pattern = literal.closedPattern ∨
      rule.pattern = literal.openPattern ∧ rule.reading = .fault := by
  obtain ⟨doubleQuotes, singleQuotes⟩ := after_quotes rule member encoding isEncoding
  cases literal with
  | string => exact doubleQuotes
  | character => exact singleQuotes

theorem exists_contents {rule : Rule} {back : List Char} (member : rule ∈ all)
    (isEncoding : encoding ∈ encodings)
    (matched : Matches rule.pattern (encoding ++ literal.quote :: back)) :
    ∃ contents last, back = contents ++ last ∧ LiteralContents literal.quote contents ∧
      (last = [] ∧ rule.reading = .fault ∨ last = [literal.quote]) := by
  rcases after_quote member isEncoding literal with nothing | isRule | ⟨isRule, isFault⟩
  · have starts : encoding ++ [literal.quote] <+: encoding ++ literal.quote :: back :=
      ⟨back, by simp⟩
    exact absurd starts (not_prefix_of_after nothing matched)
  · obtain ⟨other, contents, whole, isOther, inQuotes, _⟩ :=
      LiteralKind.startsLiteral_of_closedPattern (isRule ▸ matched)
    obtain ⟨_, rfl⟩ := encoding_unique literal.quote_cases isEncoding isOther whole
    exact ⟨contents, [literal.quote], rfl, inQuotes, .inr rfl⟩
  · obtain ⟨other, contents, whole, isOther, inQuotes, _⟩ :=
      LiteralKind.startsLiteral_of_openPattern (isRule ▸ matched)
    obtain ⟨_, rfl⟩ := encoding_unique literal.quote_cases isEncoding isOther whole
    exact ⟨contents, [], rfl, inQuotes, .inl ⟨rfl, isFault⟩⟩

theorem firstReads_of_forall {text : List Char} {reading : Reading} {rules : List Rule}
    (some : ∃ rule ∈ rules, Matches rule.pattern text)
    (only : ∀ rule ∈ rules, Matches rule.pattern text → rule.reading = reading) :
    FirstReads text reading rules := by
  induction rules with
  | nil => simp at some
  | cons rule rules ih =>
    obtain ⟨first, others⟩ := List.forall_mem_cons.1 only
    by_cases matched : Matches rule.pattern text
    · exact .inl ⟨matched, first matched⟩
    · refine .inr ⟨matched, ih ?_ others⟩
      obtain ⟨other, member, isMatched⟩ := some
      rcases List.mem_cons.1 member with rfl | later
      · exact absurd isMatched matched
      · exact ⟨other, later, isMatched⟩

/-- A broken literal is taken as a fault, with all of its contents and nothing
of what breaks it. -/
theorem takes_of_brokenLiteral (broken : BrokenLiteral literal encoding contents rest) :
    Takes .fault (encoding ++ literal.quote :: contents) rest where
  first := by
    obtain ⟨isEncoding, inQuotes, filled, _⟩ := broken
    refine firstReads_of_forall ?_ ?_
    · obtain ⟨rule, member, isOpen⟩ := literal.exists_openRule
      exact ⟨rule, member, isOpen ▸ LiteralKind.matches_openPattern isEncoding inQuotes filled⟩
    · intro rule member matched
      obtain ⟨shorter, last, rfl, shorterInQuotes, ends⟩ :=
        exists_contents member isEncoding matched
      rcases ends with ⟨_, isFault⟩ | rfl
      · exact isFault
      · exact absurd inQuotes (shorterInQuotes.not_quote literal.quote_ne_backslash)
  longest := by
    obtain ⟨isEncoding, inQuotes, _, breaks⟩ := broken
    intro rule member front isFront matched
    apply Nat.le_of_not_lt
    intro longer
    obtain ⟨more, rfl⟩ :=
      List.prefix_of_prefix_length_le (List.prefix_append _ rest) isFront (Nat.le_of_lt longer)
    have moreFront : more <+: rest := (List.prefix_append_right_inj _).1 isFront
    rw [List.append_assoc, List.cons_append] at matched
    obtain ⟨all, last, goesOn, allInQuotes, ends⟩ := exists_contents member isEncoding matched
    have atQuote : last = [] ∨ last = [literal.quote] := ends.imp_left And.left
    -- what is matched beyond the contents would be contents that go on in the rest
    obtain ⟨shorter, shorterInQuotes, rfl⟩ :=
      inQuotes.exists_of_append_eq literal.quote_ne_backslash allInQuotes atQuote goesOn
    have nothing := breaks.eq_nil literal.quote_ne_backslash literal.quote_ne_newline
      shorterInQuotes atQuote moreFront
    rw [nothing, List.append_nil] at longer
    exact Nat.lt_irrefl _ longer

end Rule

/-! ## Whole texts -/

theorem Lexeme.Passes.readFrom_error {offset : Nat} {front rest : List Char} {fault : LexFault}
    (passes : Passes front rest)
    (failed : readFrom (offset + byteLength front) rest = .error fault) :
    readFrom offset (front ++ rest) = .error fault := by
  induction passes generalizing offset with
  | start => exact failed
  | @step _ piece front rest taken noFault _ ih =>
    rw [byteLength_append, ← Nat.add_assoc] at failed
    rw [List.append_assoc]
    exact readFrom_error_of_takes taken noFault (ih failed)

/-- Where reading stands before a literal whose end is missing, it stops there,
and the fault covers the literal.  It says that the literal is unterminated if
there is no encoding, and otherwise that the input is unexpected. -/
theorem lex_brokenLiteral {literal : LiteralKind} {source : String}
    {before encoding contents rest : List Char}
    (whole : source.toList = before ++ (encoding ++ literal.quote :: contents ++ rest))
    (passes : Lexeme.Passes before (encoding ++ literal.quote :: contents ++ rest))
    (broken : BrokenLiteral literal encoding contents rest) :
    let text := encoding ++ literal.quote :: contents
    let span := Span.ofLength (byteLength before) (byteLength text)
    (encoding = [] → lex source = .error (.unterminated literal span)) ∧
      (encoding ≠ [] → lex source = .error (.unexpected (String.ofList text) span)) := by
  intro text span
  have stopped : lex source = .error (.ofText (byteLength before) text) := by
    rw [lex, whole]
    apply passes.readFrom_error
    rw [Nat.zero_add]
    exact Lexeme.readFrom_of_refuses (.fault (Rule.takes_of_brokenLiteral broken))
  rw [stopped]
  constructor
  · rintro rfl
    cases literal <;> rfl
  · intro encoded
    have isEncoding := broken.isEncoding
    simp only [encodings, List.mem_cons, List.not_mem_nil, or_false] at isEncoding
    rcases isEncoding with rfl | rfl | rfl | rfl | rfl
    · exact absurd rfl encoded
    · rfl
    · rfl
    · rfl
    · rfl

/-- The last quote belongs to a pair, so the literal is broken at the end of the
text. -/
def encodedText : String := "c=u8'\\'"

theorem passes_encodedText : Lexeme.Passes ['c', '='] ['u', '8', '\'', '\\', '\''] := by
  have word : Rule.Takes (.lexeme .word) ['c'] ['=', 'u', '8', '\'', '\\', '\''] :=
    Rule.longest?_append_iff.1 (by decide +kernel)
  have assign : Rule.Takes (.lexeme (.punct .assign)) ['='] ['u', '8', '\'', '\\', '\''] :=
    Rule.longest?_append_iff.1 (by decide +kernel)
  have behind : Lexeme.Passes ['='] ['u', '8', '\'', '\\', '\''] :=
    @Lexeme.Passes.step _ ['='] [] _ assign (by simp) .start
  exact .step word (by simp) behind

theorem brokenLiteral_encodedText :
    BrokenLiteral .character ['u', '8'] ['\\', '\''] [] where
  isEncoding := by decide
  inQuotes := .escape (by decide) .nil
  filled := nofun
  breaks := .atEnd

theorem lex_brokenLiteral_encodedText :
    encodedText.toList = ['c', '='] ++ (['u', '8'] ++ '\'' :: ['\\', '\''] ++ []) ∧
      Lexeme.Passes ['c', '='] ['u', '8', '\'', '\\', '\''] ∧
      BrokenLiteral .character ['u', '8'] ['\\', '\''] [] ∧
      lex encodedText = .error (.unexpected "u8'\\'" (.ofLength 2 5)) :=
  ⟨by decide, passes_encodedText, brokenLiteral_encodedText,
    (lex_brokenLiteral (by decide) passes_encodedText brokenLiteral_encodedText).2 nofun⟩

theorem wideText_unexpected :
    ¬ ∀ (literal : LiteralKind) (source : String) (before encoding contents rest : List Char),
      source.toList = before ++ (encoding ++ literal.quote :: contents ++ rest) →
      Lexeme.Passes before (encoding ++ literal.quote :: contents ++ rest) →
      BrokenLiteral literal encoding contents rest →
      ∃ span, lex source = .error (.unterminated literal span) := by
  intro always
  have broken : BrokenLiteral .string ['L'] ['a', 'b'] [] :=
    { isEncoding := by decide
      inQuotes := .plain (by decide) (by decide) (by decide)
        (.plain (by decide) (by decide) (by decide) .nil)
      filled := nofun
      breaks := .atEnd }
  obtain ⟨span, unterminated⟩ :=
    always .string "L\"ab" [] ['L'] ['a', 'b'] [] (by decide) .start broken
  have unexpected : lex "L\"ab" = .error (.unexpected "L\"ab" (.ofLength 0 4)) := by cbv
  rw [unexpected] at unterminated
  cases unterminated

end DeclScan
