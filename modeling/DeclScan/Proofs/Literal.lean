import DeclScan.Lexeme.Rule
import DeclScan.Pattern.Matches

/-!
# Literals

What a string or character literal holds, said without patterns: characters
other than the quote, the backslash and the line feed, and pairs of a backslash
and any character but the line feed.  No such text goes on behind a quote, so a
literal ends at the first quote that it can end at.
-/

set_option autoImplicit false

namespace DeclScan

open Pattern Rule

inductive LiteralContents (quote : Char) : List Char → Prop where
  | nil : LiteralContents quote []
  | plain {char : Char} {rest : List Char} :
      char ≠ quote → char ≠ '\\' → char ≠ '\n' → LiteralContents quote rest →
      LiteralContents quote (char :: rest)
  | escape {char : Char} {rest : List Char} :
      char ≠ '\n' → LiteralContents quote rest → LiteralContents quote ('\\' :: char :: rest)

theorem matches_literalItem_iff {quote : Char} {text : List Char} :
    Matches (literalItem quote) text ↔
      (∃ char, (char ≠ quote ∧ char ≠ '\\' ∧ char ≠ '\n') ∧ text = [char]) ∨
        ∃ char, char ≠ '\n' ∧ text = ['\\', char] := by
  simp only [literalItem, notNewline, matches_either_iff, matches_seq_iff, matches_oneOf_iff,
    matches_exactly_iff, CharSet.contains_except_iff, List.mem_cons, List.not_mem_nil, or_false,
    not_or]
  refine or_congr_right ⟨?_, ?_⟩
  · rintro ⟨_, _, rfl, rfl, char, noNewline, rfl⟩
    exact ⟨char, noNewline, rfl⟩
  · rintro ⟨char, noNewline, rfl⟩
    exact ⟨['\\'], [char], rfl, rfl, char, noNewline, rfl⟩

theorem matches_literalItems_iff {quote : Char} {text : List Char} :
    Matches (many (literalItem quote)) text ↔ LiteralContents quote text := by
  constructor
  · intro matched
    obtain ⟨items, rfl, isItems⟩ := matches_many_iff.1 matched
    clear matched
    induction items with
    | nil => exact .nil
    | cons item items ih =>
      obtain ⟨first, others⟩ := List.forall_mem_cons.1 isItems
      have rest := ih others
      rcases matches_literalItem_iff.1 first with
        ⟨char, ⟨noQuote, noBackslash, noNewline⟩, rfl⟩ | ⟨char, noNewline, rfl⟩
      · exact .plain noQuote noBackslash noNewline rest
      · exact .escape noNewline rest
  · intro contents
    induction contents with
    | nil => exact .manyNone
    | @plain char _ noQuote noBackslash noNewline _ ih =>
      have item : Matches (literalItem quote) [char] :=
        matches_literalItem_iff.2 (.inl ⟨char, ⟨noQuote, noBackslash, noNewline⟩, rfl⟩)
      exact .manyMore item ih
    | @escape char _ noNewline _ ih =>
      have item : Matches (literalItem quote) ['\\', char] :=
        matches_literalItem_iff.2 (.inr ⟨char, noNewline, rfl⟩)
      exact .manyMore item ih

theorem literalContents_cons_iff {quote char : Char} {rest : List Char} :
    LiteralContents quote (char :: rest) ↔
      ((char ≠ quote ∧ char ≠ '\\' ∧ char ≠ '\n') ∧ LiteralContents quote rest) ∨
        char = '\\' ∧ ∃ next others, rest = next :: others ∧ next ≠ '\n' ∧
          LiteralContents quote others := by
  constructor
  · intro contents
    cases contents with
    | plain noQuote noBackslash noNewline rest =>
      exact .inl ⟨⟨noQuote, noBackslash, noNewline⟩, rest⟩
    | escape noNewline rest => exact .inr ⟨rfl, _, _, rfl, noNewline, rest⟩
  · rintro (⟨⟨noQuote, noBackslash, noNewline⟩, rest⟩ | ⟨rfl, _, _, rfl, noNewline, rest⟩)
    · exact .plain noQuote noBackslash noNewline rest
    · exact .escape noNewline rest

namespace LiteralContents

variable {quote : Char} {contents longer last more : List Char}

/-- The contents of a literal are a front of any contents that start with them,
at the end of an item. -/
theorem exists_of_append_eq (noEscape : quote ≠ '\\') (inQuotes : LiteralContents quote contents)
    (longerInQuotes : LiteralContents quote longer) (ends : last = [] ∨ last = [quote])
    (same : contents ++ more = longer ++ last) :
    ∃ shorter, LiteralContents quote shorter ∧ more = shorter ++ last := by
  induction inQuotes generalizing longer with
  | nil => exact ⟨longer, longerInQuotes, same⟩
  | @plain char rest noQuote noBackslash _ _ ih =>
    cases longer with
    | nil =>
      rcases ends with rfl | rfl
      · cases same
      · exact absurd (List.cons.inj same).1 noQuote
    | cons head tail =>
      obtain ⟨rfl, sameTail⟩ := List.cons.inj same
      rcases literalContents_cons_iff.1 longerInQuotes with ⟨_, tailInQuotes⟩ | ⟨isEscape, _⟩
      · exact ih tailInQuotes sameTail
      · exact absurd isEscape noBackslash
  | @escape char rest _ _ ih =>
    cases longer with
    | nil =>
      rcases ends with rfl | rfl
      · cases same
      · exact absurd (List.cons.inj same).1.symm noEscape
    | cons head tail =>
      obtain ⟨rfl, sameTail⟩ := List.cons.inj same
      rcases literalContents_cons_iff.1 longerInQuotes with
        ⟨⟨_, noBackslash, _⟩, _⟩ | ⟨_, next, others, rfl, _, othersInQuotes⟩
      · exact absurd rfl noBackslash
      · exact ih othersInQuotes (List.cons.inj sameTail).2

theorem not_starts_quote (noEscape : quote ≠ '\\') : ¬ LiteralContents quote (quote :: more) := by
  rw [literalContents_cons_iff]
  rintro (⟨⟨noQuote, _⟩, _⟩ | ⟨isEscape, _⟩)
  · exact noQuote rfl
  · exact noEscape isEscape

/-- A quote behind the contents of a literal belongs to no longer contents. -/
theorem not_quote (noEscape : quote ≠ '\\') (inQuotes : LiteralContents quote contents) :
    ¬ LiteralContents quote (contents ++ quote :: more) := by
  intro longerInQuotes
  obtain ⟨shorter, shorterInQuotes, goesOn⟩ :=
    inQuotes.exists_of_append_eq noEscape longerInQuotes (.inl rfl) (List.append_nil _).symm
  rw [List.append_nil] at goesOn
  exact not_starts_quote noEscape (goesOn ▸ shorterInQuotes)

/-- What starts with a closed literal and goes on is no literal of the same
quotes, closed or open. -/
theorem not_extended {shorter : List Char} (noEscape : quote ≠ '\\')
    (inQuotes : LiteralContents quote contents) (shorterInQuotes : LiteralContents quote shorter)
    (ends : last = [] ∨ last = [quote]) (some : more ≠ []) :
    contents ++ last ≠ shorter ++ quote :: more := by
  intro same
  obtain ⟨rest, restInQuotes, goesOn⟩ :=
    shorterInQuotes.exists_of_append_eq noEscape inQuotes ends same.symm
  cases rest with
  | nil =>
    rcases ends with rfl | rfl
    · cases goesOn
    · exact some (List.cons.inj goesOn).2
  | cons head tail =>
    obtain ⟨rfl, _⟩ := List.cons.inj goesOn
    exact not_starts_quote noEscape restInQuotes

end LiteralContents

def encodings : List (List Char) := [[], ['u', '8'], ['u'], ['U'], ['L']]

theorem matches_optional_encoding_iff {text : List Char} :
    Matches (optional encoding) text ↔ text ∈ encodings := by
  simp only [encoding, encodings, matches_optional_iff, matches_anyOf_iff, List.mem_cons,
    List.not_mem_nil, or_false, exists_eq_or_imp, exists_eq_left, matches_exactly_iff]
  exact or_comm

/-- No encoding holds a quote, so there is one only before the first quote. -/
theorem encoding_unique {quote : Char} {encoding other rest rest' : List Char}
    (isQuote : quote = '"' ∨ quote = '\'') (isEncoding : encoding ∈ encodings)
    (isOther : other ∈ encodings) (same : encoding ++ quote :: rest = other ++ quote :: rest') :
    encoding = other ∧ rest = rest' := by
  have noQuote : ∀ front ∈ encodings, quote ∉ front := by
    rcases isQuote with rfl | rfl <;> decide
  have upToQuote {front back : List Char} (isFront : front ∈ encodings) :
      (front ++ quote :: back).takeWhile (· ≠ quote) = front := by
    have others : ∀ char ∈ front, decide (char ≠ quote) = true := by
      intro char member
      have notQuote : char ≠ quote := ne_of_mem_of_not_mem member (noQuote front isFront)
      simpa using notQuote
    rw [List.takeWhile_append_of_pos others]
    simp
  have fronts := congrArg (List.takeWhile (· ≠ quote)) same
  rw [upToQuote isEncoding, upToQuote isOther] at fronts
  subst fronts
  exact ⟨rfl, (List.cons.inj (List.append_cancel_left same)).2⟩

/-- An encoding, a quote, contents, and perhaps the quote that ends the
literal. -/
structure StartsLiteral (quote : Char) (text encoding contents last : List Char) : Prop where
  whole : text = encoding ++ quote :: (contents ++ last)
  isEncoding : encoding ∈ encodings
  inQuotes : LiteralContents quote contents
  ends : last = [] ∨ last = [quote]

theorem startsLiteral_of_openString {text : List Char} (matched : Matches openString text) :
    ∃ encoding contents, StartsLiteral '"' text encoding contents [] := by
  simp only [openString, matches_inOrder_cons_iff, matches_optional_encoding_iff,
    matches_exactly_iff, matches_literalItems_iff] at matched
  obtain ⟨encoding, _, rfl, isEncoding, _, _, rfl, rfl, contents, _, rfl, inQuotes, isEnd⟩ := matched
  obtain rfl := matches_nothing_iff.1 isEnd
  exact ⟨encoding, contents, rfl, isEncoding, inQuotes, .inl rfl⟩

theorem startsLiteral_of_string {text : List Char} (matched : Matches string text) :
    ∃ encoding contents, StartsLiteral '"' text encoding contents ['"'] := by
  simp only [string, matches_inOrder_cons_iff, matches_optional_encoding_iff,
    matches_exactly_iff, matches_literalItems_iff] at matched
  obtain ⟨encoding, _, rfl, isEncoding, _, _, rfl, rfl, contents, _, rfl, inQuotes, _, _, rfl, rfl,
    isEnd⟩ := matched
  obtain rfl := matches_nothing_iff.1 isEnd
  exact ⟨encoding, contents, rfl, isEncoding, inQuotes, .inr rfl⟩

theorem matches_oneOrMore_literalItem_iff {quote : Char} {text : List Char} :
    Matches (oneOrMore (literalItem quote)) text ↔ text ≠ [] ∧ LiteralContents quote text := by
  constructor
  · intro matched
    obtain ⟨first, rest, rfl, isFirst, isRest⟩ := matches_seq_iff.1 matched
    refine ⟨?_, matches_literalItems_iff.1 (.manyMore isFirst isRest)⟩
    rcases matches_literalItem_iff.1 isFirst with ⟨char, _, rfl⟩ | ⟨char, _, rfl⟩ <;> simp
  · rintro ⟨some, inQuotes⟩
    cases inQuotes with
    | nil => exact absurd rfl some
    | @plain char _ noQuote noBackslash noNewline rest =>
      have item : Matches (literalItem quote) [char] :=
        matches_literalItem_iff.2 (.inl ⟨char, ⟨noQuote, noBackslash, noNewline⟩, rfl⟩)
      exact .seq item (matches_literalItems_iff.2 rest)
    | @escape char _ noNewline rest =>
      have item : Matches (literalItem quote) ['\\', char] :=
        matches_literalItem_iff.2 (.inr ⟨char, noNewline, rfl⟩)
      exact .seq item (matches_literalItems_iff.2 rest)

theorem startsLiteral_of_openCharacter {text : List Char} (matched : Matches openCharacter text) :
    ∃ encoding contents, StartsLiteral '\'' text encoding contents [] := by
  rcases matches_either_iff.1 matched with bare | encoded
  · simp only [matches_seq_iff, matches_exactly_iff, matches_literalItems_iff] at bare
    obtain ⟨_, contents, rfl, rfl, inQuotes⟩ := bare
    exact ⟨[], contents, by simp, by simp [encodings], inQuotes, .inl rfl⟩
  · simp only [matches_inOrder_cons_iff, matches_exactly_iff] at encoded
    obtain ⟨encoding, _, rfl, isEncoding, _, _, rfl, rfl, contents, _, rfl, some, isEnd⟩ := encoded
    obtain rfl := matches_nothing_iff.1 isEnd
    exact ⟨encoding, contents, rfl, matches_optional_encoding_iff.1 (.left isEncoding),
      (matches_oneOrMore_literalItem_iff.1 some).2, .inl rfl⟩

theorem startsLiteral_of_character {text : List Char} (matched : Matches character text) :
    ∃ encoding contents, StartsLiteral '\'' text encoding contents ['\''] := by
  simp only [character, matches_inOrder_cons_iff, matches_optional_encoding_iff,
    matches_exactly_iff] at matched
  obtain ⟨encoding, _, rfl, isEncoding, _, _, rfl, rfl, contents, _, rfl, some, _, _, rfl, rfl,
    isEnd⟩ := matched
  obtain rfl := matches_nothing_iff.1 isEnd
  exact ⟨encoding, contents, rfl, isEncoding, (matches_oneOrMore_literalItem_iff.1 some).2, .inr rfl⟩

end DeclScan
