import Mathlib
import DeclScan.Proofs.Literal
import DeclScan.Proofs.Reading

/-!
# Lexemes before a space

A lexeme with a space behind it is read as it is, whatever follows: no rule
matches it together with the space.  A single space before a lexeme is one
blank.  `Lexeme.readFrom_spaced` puts the two together for a list of lexemes.
-/

set_option autoImplicit false

namespace DeclScan

open Pattern

namespace Pattern

def after (pattern : Pattern) : List Char → Pattern
  | [] => pattern
  | char :: rest => (pattern.derivative char).after rest

theorem matches_after_iff {pattern : Pattern} {front back : List Char} :
    Matches (pattern.after front) back ↔ Matches pattern (front ++ back) := by
  induction front generalizing pattern with
  | nil => rfl
  | cons char rest ih => rw [after, ih, matches_derivative_iff, List.cons_append]

theorem not_prefix_of_after {pattern : Pattern} {front text : List Char}
    (nothingBehind : pattern.after front = never) (matched : Matches pattern text) :
    ¬ front <+: text := by
  rintro ⟨back, rfl⟩
  rw [← matches_after_iff, nothingBehind] at matched
  exact not_matches_never matched

/-- Whether no match of the pattern holds the character. -/
def avoids (char : Char) : Pattern → Bool
  | never | nothing => true
  | oneOf set => !set.contains char
  | seq first second => first.avoids char && second.avoids char
  | either left right => left.avoids char && right.avoids char
  | many body => body.avoids char

theorem not_mem_of_avoids {pattern : Pattern} {char : Char} {text : List Char}
    (avoided : pattern.avoids char = true) (matched : Matches pattern text) : char ∉ text := by
  induction matched with
  | nothing | manyNone => exact List.not_mem_nil
  | oneOf member =>
    rw [List.mem_singleton]
    rintro rfl
    simp [avoids, member] at avoided
  | seq _ _ firstIH secondIH =>
    obtain ⟨first, second⟩ := Bool.and_eq_true_iff.1 avoided
    rw [List.mem_append]
    exact not_or.2 ⟨firstIH first, secondIH second⟩
  | left _ ih => exact ih (Bool.and_eq_true_iff.1 avoided).1
  | right _ ih => exact ih (Bool.and_eq_true_iff.1 avoided).2
  | manyMore _ _ frontIH backIH =>
    rw [List.mem_append]
    exact not_or.2 ⟨frontIH avoided, backIH avoided⟩

end Pattern

/-! ## Where lexemes and blanks start -/

namespace Rule

def IsLexeme (text : List Char) : Prop :=
  ∃ kind, ∃ rule ∈ all, rule.reading = .lexeme kind ∧ Matches rule.pattern text

/-- The fronts by which blanks and open comments are told. -/
def blankFronts : List (List Char) :=
  [[' '], ['\t'], ['\r'], ['\n'], ['\x0c'], ['/', '/'], ['/', '*']]

theorem after_blankFronts : ∀ rule ∈ all, rule.reading ≠ .blank → rule.reading ≠ .fault →
    ∀ front ∈ blankFronts, rule.pattern.after front = never := by
  decide

/-- Behind an encoding and a quote only literals in these quotes go on, and one
that is not closed is a fault. -/
theorem after_quotes : ∀ rule ∈ all, ∀ encoding ∈ encodings,
    (rule.pattern.after (encoding ++ ['"']) = never ∨ rule.pattern = string ∨
        rule.pattern = openString ∧ rule.reading = .fault) ∧
      (rule.pattern.after (encoding ++ ['\'']) = never ∨ rule.pattern = character ∨
        rule.pattern = openCharacter ∧ rule.reading = .fault) := by
  decide

theorem after_space : ∀ rule ∈ all,
    rule.pattern.after [' '] = never ∨ rule.pattern = whitespace := by
  decide

/-- The patterns that may hold a space are those of blanks, comments and
literals. -/
theorem avoids_space : ∀ rule ∈ all, rule.pattern.avoids ' ' = true ∨
    rule.pattern = whitespace ∨
    (rule.pattern = lineComment ∨ rule.pattern = blockComment ∨
      rule.pattern = openBlockComment) ∨
    (rule.pattern = string ∨ rule.pattern = openString) ∨
    (rule.pattern = character ∨ rule.pattern = openCharacter) := by
  decide

theorem Takes.isLexeme {kind : LexemeKind} {text rest : List Char}
    (taken : Takes (.lexeme kind) text rest) : IsLexeme text :=
  ⟨kind, taken.first.exists_rule⟩

theorem IsLexeme.not_blankFront {text front : List Char} (isLexeme : IsLexeme text)
    (isBlank : front ∈ blankFronts) : ¬ front <+: text := by
  obtain ⟨kind, rule, member, isKind, matched⟩ := isLexeme
  have notBlank : rule.reading ≠ .blank := by simp [isKind]
  have notFault : rule.reading ≠ .fault := by simp [isKind]
  exact not_prefix_of_after (after_blankFronts rule member notBlank notFault front isBlank) matched

theorem matches_whitespace_iff {text : List Char} :
    Matches whitespace text ↔ text ≠ [] ∧ ∀ char ∈ text, [char] ∈ blankFronts := by
  simp [whitespace, blankChar, blankFronts, matches_oneOrMore_oneOf_iff,
    CharSet.contains_ofChars_iff]

theorem prefix_of_matches_seq {opening : String} {rest : Pattern} {text : List Char}
    (matched : Matches (seq (exactly opening) rest) text) : opening.toList <+: text := by
  obtain ⟨_, back, rfl, opened, _⟩ := matches_seq_iff.1 matched
  obtain rfl := matches_exactly_iff.1 opened
  exact ⟨back, rfl⟩

theorem exists_blankFront_of_comment {rule : Rule} {text : List Char}
    (isComment : rule.pattern = lineComment ∨ rule.pattern = blockComment ∨
      rule.pattern = openBlockComment) (matched : Matches rule.pattern text) :
    ∃ front ∈ blankFronts, ' ' ∉ front ∧ front <+: text := by
  rcases isComment with isRule | isRule | isRule
  · rw [isRule] at matched
    exact ⟨['/', '/'], by decide, by decide, prefix_of_matches_seq matched⟩
  · rw [isRule] at matched
    exact ⟨['/', '*'], by decide, by decide, prefix_of_matches_seq matched⟩
  · rw [isRule] at matched
    exact ⟨['/', '*'], by decide, by decide, prefix_of_matches_seq matched⟩

theorem IsLexeme.ne_nil {text : List Char} (isLexeme : IsLexeme text) : text ≠ [] := by
  rintro rfl
  obtain ⟨_, rule, member, _, matched⟩ := isLexeme
  rw [← matchesNothing_iff, matchesNothing_eq_false rule member] at matched
  cases matched

theorem IsLexeme.startsLiteral {text encoding : List Char} {quote : Char}
    (isLexeme : IsLexeme text) (isQuote : quote = '"' ∨ quote = '\'')
    (isEncoding : encoding ∈ encodings) (starts : encoding ++ [quote] <+: text) :
    ∃ contents, StartsLiteral quote text encoding contents [quote] := by
  obtain ⟨kind, rule, member, isKind, matched⟩ := isLexeme
  have notFault : rule.reading ≠ .fault := by simp [isKind]
  obtain ⟨doubleQuotes, singleQuotes⟩ := after_quotes rule member encoding isEncoding
  have closed : ∃ other contents, StartsLiteral quote text other contents [quote] := by
    rcases isQuote with rfl | rfl
    · rcases doubleQuotes with nothing | isRule | ⟨_, isFault⟩
      · exact absurd starts (not_prefix_of_after nothing matched)
      · exact startsLiteral_of_string (isRule ▸ matched)
      · exact absurd isFault notFault
    · rcases singleQuotes with nothing | isRule | ⟨_, isFault⟩
      · exact absurd starts (not_prefix_of_after nothing matched)
      · exact startsLiteral_of_character (isRule ▸ matched)
      · exact absurd isFault notFault
  obtain ⟨other, contents, whole, isOther, inQuotes, ends⟩ := closed
  obtain ⟨rest, split⟩ := starts
  rw [List.append_assoc, List.singleton_append, whole] at split
  obtain ⟨rfl, _⟩ := encoding_unique isQuote isEncoding isOther split
  exact ⟨contents, whole, isEncoding, inQuotes, ends⟩

theorem prefix_of_not_mem {front text back : List Char} {delimiter : Char}
    (isFront : front <+: text ++ delimiter :: back) (absent : delimiter ∉ front) :
    front <+: text := by
  rcases Nat.lt_or_ge text.length front.length with longer | short
  · have withDelimiter : text ++ [delimiter] <+: text ++ delimiter :: back := ⟨back, by simp⟩
    have isInner : text ++ [delimiter] <+: front :=
      List.prefix_of_prefix_length_le withDelimiter isFront (by simpa using longer)
    exact absurd (isInner.subset (by simp)) absent
  · exact List.prefix_of_prefix_length_le isFront (List.prefix_append _ _) short

theorem IsLexeme.not_startsLiteral_spaced {text back encoding contents last : List Char}
    {quote : Char} (isLexeme : IsLexeme text) (isQuote : quote = '"' ∨ quote = '\'') :
    ¬ StartsLiteral quote (text ++ ' ' :: back) encoding contents last := by
  rintro ⟨whole, isEncoding, inQuotes, ends⟩
  have noSpace : ' ' ∉ encoding ++ [quote] := by
    have inEncodings : ∀ encoding ∈ encodings, ' ' ∉ encoding := by decide
    rcases isQuote with rfl | rfl <;> simp [inEncodings encoding isEncoding]
  have noEscape : quote ≠ '\\' := by
    rcases isQuote with rfl | rfl <;> decide
  have isFront : encoding ++ [quote] <+: text ++ ' ' :: back :=
    ⟨contents ++ last, by rw [whole]; simp⟩
  have starts : encoding ++ [quote] <+: text := prefix_of_not_mem isFront noSpace
  obtain ⟨shorter, isText, _, shorterInQuotes, _⟩ :=
    isLexeme.startsLiteral isQuote isEncoding starts
  rw [isText] at whole
  have goesOn : contents ++ last = shorter ++ quote :: ' ' :: back := by simpa using whole.symm
  exact inQuotes.not_extended noEscape shorterInQuotes ends (List.cons_ne_nil _ _) goesOn

/-- No rule matches a lexeme together with a space behind it. -/
theorem IsLexeme.not_matches_spaced {text back : List Char} (isLexeme : IsLexeme text)
    {rule : Rule} (member : rule ∈ all) : ¬ Matches rule.pattern (text ++ ' ' :: back) := by
  intro matched
  rcases avoids_space rule member with
    avoided | isRule | isComment | (isRule | isRule) | (isRule | isRule)
  · exact not_mem_of_avoids avoided matched (by simp)
  · rw [isRule, matches_whitespace_iff] at matched
    obtain ⟨first, rest, rfl⟩ := List.exists_cons_of_ne_nil isLexeme.ne_nil
    exact isLexeme.not_blankFront (matched.2 first (by simp)) ⟨rest, rfl⟩
  · obtain ⟨front, isBlank, noSpace, isFront⟩ := exists_blankFront_of_comment isComment matched
    exact isLexeme.not_blankFront isBlank (prefix_of_not_mem isFront noSpace)
  · obtain ⟨_, _, starts⟩ := startsLiteral_of_string (isRule ▸ matched)
    exact isLexeme.not_startsLiteral_spaced (.inl rfl) starts
  · obtain ⟨_, _, starts⟩ := startsLiteral_of_openString (isRule ▸ matched)
    exact isLexeme.not_startsLiteral_spaced (.inl rfl) starts
  · obtain ⟨_, _, starts⟩ := startsLiteral_of_character (isRule ▸ matched)
    exact isLexeme.not_startsLiteral_spaced (.inr rfl) starts
  · obtain ⟨_, _, starts⟩ := startsLiteral_of_openCharacter (isRule ▸ matched)
    exact isLexeme.not_startsLiteral_spaced (.inr rfl) starts

/-! ## Taking with other text behind -/

theorem Takes.alone {reading : Reading} {text rest : List Char} (taken : Takes reading text rest) :
    Takes reading text [] := by
  have withNothing : Takes reading text ([] ++ rest) := taken
  exact withNothing.shorter

/-- A lexeme stays one with a space and anything else behind it. -/
theorem Takes.spaced {kind : LexemeKind} {text rest back : List Char}
    (taken : Takes (.lexeme kind) text rest) : Takes (.lexeme kind) text (' ' :: back) where
  first := taken.first
  longest := by
    intro rule member front isFront matched
    apply Nat.le_of_not_lt
    intro longer
    have withSpace : text ++ [' '] <+: text ++ ' ' :: back := ⟨back, by simp⟩
    have isInner : text ++ [' '] <+: front :=
      List.prefix_of_prefix_length_le withSpace isFront (by simpa using longer)
    obtain ⟨more, rfl⟩ := isInner
    rw [List.append_assoc] at matched
    exact taken.isLexeme.not_matches_spaced member matched

/-- A single space before a lexeme is a blank of its own. -/
theorem takes_space {text rest : List Char} (isLexeme : IsLexeme text) :
    Takes .blank [' '] (text ++ rest) where
  first := by
    refine .inl ⟨?_, rfl⟩
    exact matches_whitespace_iff.2 ⟨by simp, by simp [blankFronts]⟩
  longest := by
    intro rule member front isFront matched
    apply Nat.le_of_not_lt
    intro longer
    obtain ⟨first, others, rfl⟩ := List.exists_cons_of_ne_nil isLexeme.ne_nil
    have isInner : [' ', first] <+: front :=
      List.prefix_of_prefix_length_le ⟨others ++ rest, rfl⟩ isFront longer
    rcases after_space rule member with nothing | isRule
    · have spaceFront : [' '] <+: front := List.IsPrefix.trans ⟨[first], rfl⟩ isInner
      exact not_prefix_of_after nothing matched spaceFront
    · rw [isRule, matches_whitespace_iff] at matched
      have isBlank := matched.2 first (isInner.subset (by simp))
      exact isLexeme.not_blankFront isBlank ⟨others, rfl⟩

end Rule

namespace Lexeme

theorem readFrom_spaced {lexemes : List Lexeme} (offset : Nat)
    (alone : ∀ lexeme ∈ lexemes, Rule.Takes (.lexeme lexeme.kind) lexeme.text.toList []) :
    ∃ again, readFrom offset (List.intercalate [' '] (lexemes.map fun lexeme =>
        lexeme.text.toList)) = .ok again ∧
      (again.map fun lexeme => (lexeme.kind, lexeme.text)) =
        lexemes.map fun lexeme => (lexeme.kind, lexeme.text) := by
  induction lexemes generalizing offset with
  | nil => exact ⟨[], readFrom_nil, rfl⟩
  | cons lexeme others ih =>
    obtain ⟨first, rest⟩ := List.forall_mem_cons.1 alone
    cases others with
    | nil =>
      refine ⟨[ofText lexeme.kind offset lexeme.text.toList], ?_, by simp [ofText]⟩
      have read : readFrom offset (lexeme.text.toList ++ []) = _ := readFrom_of_lexeme first
      rw [readFrom_nil, List.append_nil] at read
      rw [List.map_singleton, List.intercalate_singleton, read]
      rfl
    | cons next others =>
      obtain ⟨again, readRest, same⟩ :=
        ih (offset + byteLength lexeme.text.toList + byteLength [' ']) rest
      refine ⟨ofText lexeme.kind offset lexeme.text.toList :: again, ?_, ?_⟩
      · have joined : List.intercalate [' ']
            ((lexeme :: next :: others).map fun lexeme => lexeme.text.toList) =
              lexeme.text.toList ++ ' ' :: List.intercalate [' ']
                ((next :: others).map fun lexeme => lexeme.text.toList) := by
          simp [List.intercalate_cons_cons]
        obtain ⟨more, startsNext⟩ : ∃ more, List.intercalate [' ']
            ((next :: others).map fun lexeme => lexeme.text.toList) =
              next.text.toList ++ more := by
          cases others <;> simp [List.intercalate_cons_cons]
        have isNext := (rest next List.mem_cons_self).isLexeme
        rw [joined, readFrom_of_lexeme first.spaced, ← List.singleton_append, startsNext,
          readFrom_of_blank (Rule.takes_space isNext), ← startsNext, readRest]
        rfl
      · simpa [ofText] using same

end Lexeme

end DeclScan
