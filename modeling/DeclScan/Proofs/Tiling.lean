import Mathlib
import DeclScan.Proofs.Reading

/-!
# Lexemes tile the text

A text that can be read is divided into its lexemes, each as long as the rules
allow, and gaps that hold nothing but blanks.  The main statement is
`lex_tiling`.
-/

set_option autoImplicit false

namespace DeclScan

open Pattern

/-- One blank, and the text behind it: a run of white space, a line break after
a backslash, a comment up to the end of its line, or a block comment up to the
first slash that follows a star. -/
inductive Blank : List Char → List Char → Prop where
  | whitespace {run rest : List Char} :
      run ≠ [] → (∀ char ∈ run, char ∈ [' ', '\t', '\r', '\n', '\x0c']) → Blank run rest
  | continuation {rest : List Char} : Blank ['\\', '\n'] rest
  | returnContinuation {rest : List Char} : Blank ['\\', '\r', '\n'] rest
  | lineComment {comment rest : List Char} :
      '\n' ∉ comment → (∀ next ∈ rest.head?, next = '\n') → Blank ('/' :: '/' :: comment) rest
  | blockComment {comment rest : List Char} :
      ¬ ['*', '/'] <:+: comment ++ ['*'] → Blank ('/' :: '*' :: (comment ++ ['*', '/'])) rest

def Unclosed (text : List Char) : Prop :=
  text.IsChain fun first second => ¬ (first = '*' ∧ second = '/')

namespace Unclosed

theorem of_pairs {text : List Char}
    (safe : ∀ first ∈ text, ∀ second ∈ text, ¬ (first = '*' ∧ second = '/')) : Unclosed text := by
  have anyTwo : text.Pairwise fun _ _ => True := List.pairwise_of_forall fun _ _ => trivial
  refine (anyTwo.imp_of_mem ?_).isChain
  intro first second isFirst isSecond _
  exact safe first isFirst second isSecond

theorem append {front back : List Char} (frontUnclosed : Unclosed front)
    (backUnclosed : Unclosed back) (noSlash : ∀ next ∈ back.head?, next ≠ '/') :
    Unclosed (front ++ back) := by
  refine List.isChain_append.2 ⟨frontUnclosed, backUnclosed, ?_⟩
  intro _ _ next isNext closed
  exact noSlash next isNext closed.2

theorem not_infix {text : List Char} (unclosed : Unclosed text) : ¬ ['*', '/'] <:+: text := by
  intro inside
  have closed := List.IsChain.infix unclosed inside
  exact List.isChain_pair.1 closed ⟨rfl, rfl⟩

end Unclosed

/-- The text of an open comment whose last character may be the star that ends
it. -/
structure Starred (text : List Char) : Prop where
  unclosed : Unclosed text
  last : text.getLast? = some '*'

namespace Rule

/-- Stars behind text that holds none. -/
theorem starred_append {front plain stars : List Char} (unclosed : Unclosed front)
    (noStar : ∀ char ∈ plain, char ≠ '*') (noSlash : front = [] ∨ ∃ next ∈ plain.head?, next ≠ '/')
    (isStars : Matches (oneOrMore (exactly "*")) stars) : Starred (front ++ plain ++ stars) := by
  obtain ⟨some, allStars⟩ := matches_oneOrMore_oneOf_iff.1 isStars
  simp only [CharSet.contains_single_iff] at allStars
  have plainUnclosed : Unclosed plain :=
    .of_pairs fun first member _ _ closed => noStar first member closed.1
  have starsUnclosed : Unclosed stars := by
    refine .of_pairs fun _ _ second member closed => ?_
    have isStar := allStars second member
    rw [closed.2] at isStar
    exact absurd isStar (by decide)
  have frontUnclosed : Unclosed (front ++ plain) := by
    rcases noSlash with rfl | ⟨next, isNext, noSlash⟩
    · exact plainUnclosed
    · refine unclosed.append plainUnclosed fun other isOther => ?_
      rw [Option.mem_unique isOther isNext]
      exact noSlash
  constructor
  · refine frontUnclosed.append starsUnclosed fun next isNext => ?_
    rw [allStars next (List.mem_of_mem_head? isNext)]
    decide
  · obtain ⟨last, isLast⟩ := Option.ne_none_iff_exists'.1 (mt List.getLast?_eq_none_iff.1 some)
    rw [List.getLast?_append, isLast, allStars last (List.mem_of_getLast? isLast)]
    rfl

def commentRound : Pattern :=
  inOrder [oneOf (.except ['/', '*']), many (oneOf (.except ['*'])), oneOrMore (exactly "*")]

theorem starred_rounds {front : List Char} (starred : Starred front) {rounds : List (List Char)}
    (matched : ∀ round ∈ rounds, Matches commentRound round) :
    Starred (front ++ rounds.flatten) := by
  induction rounds generalizing front with
  | nil => simpa using starred
  | cons round rounds ih =>
    obtain ⟨first, others⟩ := List.forall_mem_cons.1 matched
    simp only [commentRound, matches_inOrder_cons_iff, matches_oneOf_iff, matches_many_oneOf_iff,
      CharSet.contains_except_iff] at first
    obtain ⟨_, _, rfl, ⟨start, noSlash, rfl⟩, plain, _, rfl, noStar, stars, _, rfl, isStars, isEnd⟩ :=
      first
    obtain rfl := matches_nothing_iff.1 isEnd
    simp only [List.mem_cons, List.not_mem_nil, or_false, not_or] at noSlash noStar
    have more : Starred (front ++ (start :: plain) ++ stars) :=
      starred_append starred.unclosed (List.forall_mem_cons.2 ⟨noSlash.2, noStar⟩)
        (.inr ⟨start, rfl, noSlash.1⟩) isStars
    have all := ih more others
    simpa using all

/-- A block comment ends at the first slash that follows a star. -/
theorem exists_of_blockComment {text : List Char} (matched : Matches blockComment text) :
    ∃ comment, text = '/' :: '*' :: (comment ++ ['*', '/']) ∧
      ¬ ['*', '/'] <:+: comment ++ ['*'] := by
  simp only [blockComment, matches_inOrder_cons_iff, matches_exactly_iff, matches_many_oneOf_iff,
    CharSet.contains_except_iff] at matched
  obtain ⟨_, _, rfl, rfl, plain, _, rfl, noStar, stars, _, rfl, isStars, _, _, rfl, repeated,
    _, _, rfl, rfl, isEnd⟩ := matched
  obtain rfl := matches_nothing_iff.1 isEnd
  obtain ⟨rounds, rfl, isRounds⟩ := matches_many_iff.1 repeated
  simp only [List.mem_cons, List.not_mem_nil, or_false] at noStar
  have starred : Starred (plain ++ stars ++ rounds.flatten) := by
    refine starred_rounds ?_ isRounds
    have first : Starred ([] ++ plain ++ stars) := starred_append .nil noStar (.inl rfl) isStars
    exact first
  obtain ⟨comment, isComment⟩ := List.getLast?_eq_some_iff.1 starred.last
  refine ⟨comment, ?_, ?_⟩
  · have whole := congrArg (· ++ ['/']) isComment
    simp only [List.append_assoc, List.singleton_append] at whole
    rw [← whole]
    rfl
  · rw [← isComment]
    exact starred.unclosed.not_infix

theorem blankPatterns : ∀ rule ∈ all, rule.reading = .blank →
    rule.pattern = whitespace ∨ rule.pattern = lineContinuation ∨ rule.pattern = lineComment ∨
      rule.pattern = blockComment := by
  decide

theorem matches_lineComment_iff {text : List Char} :
    Matches lineComment text ↔ ∃ comment, text = '/' :: '/' :: comment ∧ '\n' ∉ comment := by
  simp only [lineComment, notNewline, matches_seq_iff, matches_exactly_iff,
    matches_many_oneOf_iff, CharSet.contains_except_iff, List.mem_singleton]
  constructor
  · rintro ⟨_, comment, rfl, rfl, noNewline⟩
    exact ⟨comment, rfl, fun member => noNewline _ member rfl⟩
  · rintro ⟨comment, rfl, noNewline⟩
    exact ⟨['/', '/'], comment, rfl, rfl, fun char member isNewline =>
      noNewline (isNewline ▸ member)⟩

theorem blank_of_takes {text rest : List Char} (taken : Takes .blank text rest) :
    Blank text rest := by
  obtain ⟨rule, member, isBlank, matched⟩ := taken.first.exists_rule
  rcases blankPatterns rule member isBlank with isRule | isRule | isRule | isRule
  · rw [isRule, whitespace, matches_oneOrMore_oneOf_iff] at matched
    exact .whitespace matched.1 fun char inText =>
      CharSet.contains_ofChars_iff.1 (matched.2 char inText)
  · rw [isRule] at matched
    simp only [lineContinuation, matches_inOrder_cons_iff, matches_exactly_iff,
      matches_optional_iff] at matched
    obtain ⟨_, _, rfl, rfl, _, _, rfl, isReturn, _, _, rfl, rfl, isEnd⟩ := matched
    obtain rfl := matches_nothing_iff.1 isEnd
    rcases isReturn with rfl | rfl
    · exact .returnContinuation
    · exact .continuation
  · rw [isRule] at matched
    obtain ⟨comment, rfl, noNewline⟩ := matches_lineComment_iff.1 matched
    refine .lineComment noNewline fun next isNext => ?_
    -- otherwise the comment would go on with this character
    by_contra goesOn
    obtain ⟨rest, rfl⟩ := List.head?_eq_some_iff.1 isNext
    have longer : Matches rule.pattern ('/' :: '/' :: (comment ++ [next])) := by
      rw [isRule]
      refine matches_lineComment_iff.2 ⟨_, rfl, ?_⟩
      simpa [noNewline] using Ne.symm goesOn
    have := taken.longest rule member _ (by simp) longer
    simp at this
  · rw [isRule] at matched
    obtain ⟨comment, rfl, unclosed⟩ := exists_of_blockComment matched
    exact .blockComment unclosed

end Rule

inductive Gap : List Char → List Char → Prop where
  | nothing {rest : List Char} : Gap [] rest
  | blank {blank gap rest : List Char} :
      Blank blank (gap ++ rest) → Gap gap rest → Gap (blank ++ gap) rest

/-! ## Tilings -/

/-- A text from an offset on, divided into lexemes and the gaps before them, and
a last gap. -/
inductive Tiling : Nat → List Char → List Lexeme → Prop where
  | last {offset : Nat} {gap : List Char} : Gap gap [] → Tiling offset gap []
  | more {offset : Nat} {gap text rest : List Char} {kind : LexemeKind} {lexemes : List Lexeme} :
      Gap gap (text ++ rest) → Rule.Takes (.lexeme kind) text rest →
      Tiling (offset + byteLength (gap ++ text)) rest lexemes →
      Tiling offset (gap ++ text ++ rest)
        (Lexeme.ofText kind (offset + byteLength gap) text :: lexemes)

namespace Tiling

variable {offset : Nat} {text : List Char} {lexemes : List Lexeme}

theorem blank {front : List Char} (tiling : Tiling (offset + byteLength front) text lexemes)
    (isBlank : Blank front text) : Tiling offset (front ++ text) lexemes := by
  cases tiling with
  | last isGap => exact .last (.blank (by rwa [List.append_nil]) isGap)
  | @more _ gap text rest kind others isGap taken tiled =>
    rw [Nat.add_assoc, ← byteLength_append] at tiled ⊢
    rw [← List.append_assoc, ← List.append_assoc]
    rw [← List.append_assoc] at tiled
    refine .more (.blank ?_ isGap) taken tiled
    rwa [← List.append_assoc]

theorem of_readFrom (read : Lexeme.readFrom offset text = .ok lexemes) :
    Tiling offset text lexemes := by
  induction size : text.length using Nat.strongRecOn generalizing offset text lexemes with
  | ind length ih =>
    have shorter {front rest : List Char} {reading : Reading}
        (taken : Rule.Takes reading front rest) (split : text = front ++ rest) :
        rest.length < length := by
      have := List.length_pos_iff.2 taken.ne_nil
      rw [← size, split, List.length_append]
      omega
    rcases Lexeme.readFrom_cases read with
      ⟨rfl, rfl⟩ | ⟨front, rest, rfl, taken, readRest⟩ |
        ⟨kind, front, rest, others, rfl, taken, rfl, readRest⟩
    · exact .last .nothing
    · exact (ih _ (shorter taken rfl) readRest rfl).blank (Rule.blank_of_takes taken)
    · have tiled := ih _ (shorter taken rfl) readRest rfl
      have noGap : Gap [] (front ++ rest) := .nothing
      exact .more noGap taken tiled

theorem placed (tiling : Tiling offset text lexemes) : ∀ lexeme ∈ lexemes, ∃ before after,
    text = before ++ lexeme.text.toList ++ after ∧
      lexeme.span.start = offset + byteLength before ∧
      lexeme.span.stop = offset + byteLength (before ++ lexeme.text.toList) ∧
      Rule.Takes (.lexeme lexeme.kind) lexeme.text.toList after := by
  induction tiling with
  | last => exact nofun
  | @more offset gap text rest kind others _ taken _ ih =>
    intro lexeme member
    rcases List.mem_cons.1 member with rfl | later
    · have isText : (Lexeme.ofText kind (offset + byteLength gap) text).text.toList = text :=
        String.toList_ofList
      rw [isText]
      refine ⟨gap, rest, rfl, rfl, ?_, taken⟩
      rw [byteLength_append, ← Nat.add_assoc]
      rfl
    · obtain ⟨before, after, rfl, start, stop, laterTaken⟩ := ih lexeme later
      refine ⟨gap ++ text ++ before, after, by simp, ?_, ?_, laterTaken⟩
      · rw [start, byteLength_append (gap ++ text), Nat.add_assoc]
      · rw [stop, List.append_assoc (gap ++ text), byteLength_append (gap ++ text), Nat.add_assoc]

theorem ordered (tiling : Tiling offset text lexemes) :
    lexemes.Pairwise fun first second => first.span.stop ≤ second.span.start := by
  induction tiling with
  | last => exact .nil
  | @more offset gap text rest kind others _ _ tiled ih =>
    refine .cons ?_ ih
    intro second later
    obtain ⟨before, _, _, start, _⟩ := tiled.placed second later
    have stop : (Lexeme.ofText kind (offset + byteLength gap) text).span.stop =
        offset + byteLength gap + byteLength text := rfl
    rw [start, stop, byteLength_append]
    omega

end Tiling

theorem byteLength_pos {text : List Char} (some : text ≠ []) : 0 < byteLength text := by
  cases text with
  | nil => exact absurd rfl some
  | cons char rest =>
    have := char.utf8Size_pos
    simp only [byteLength]
    omega

theorem Tiling.start_lt_stop {offset : Nat} {text : List Char} {lexemes : List Lexeme}
    (tiling : Tiling offset text lexemes) :
    ∀ lexeme ∈ lexemes, lexeme.span.start < lexeme.span.stop := by
  intro lexeme member
  obtain ⟨before, after, _, start, stop, taken⟩ := tiling.placed lexeme member
  have := byteLength_pos taken.ne_nil
  rw [start, stop, byteLength_append]
  omega

theorem byteLength_toList (text : String) : byteLength text.toList = text.utf8ByteSize := by
  have sizes (chars : List Char) : byteLength chars = (String.ofList chars).utf8ByteSize := by
    induction chars with
    | nil => rfl
    | cons char rest ih =>
      rw [byteLength, ih, String.utf8ByteSize_ofList, String.utf8ByteSize_ofList, String.utf8Len]
      omega
  rw [sizes, String.ofList_toList]

/-- Where a text can be read, its lexemes tile it.  Between them, before the
first one and behind the last one stand blanks only.  Each lexeme is a nonempty
slice of the text at its span, spans do not overlap and come in order, and from
the start of each lexeme on, its text matches a rule of its kind while no rule
matches a longer front. -/
theorem lex_tiling {source : String} {lexemes : List Lexeme} (read : lex source = .ok lexemes) :
    Tiling 0 source.toList lexemes ∧
      (lexemes.Pairwise fun first second => first.span.stop ≤ second.span.start) ∧
      ∀ lexeme ∈ lexemes, lexeme.span.start < lexeme.span.stop ∧
        ∃ before after : String, source = before ++ lexeme.text ++ after ∧
          lexeme.span.start = before.utf8ByteSize ∧
          lexeme.span.stop = (before ++ lexeme.text).utf8ByteSize ∧
          (∃ rule ∈ Rule.all, rule.reading = .lexeme lexeme.kind ∧
            rule.pattern.Matches lexeme.text.toList) ∧
          ∀ rule ∈ Rule.all, ∀ front, front <+: lexeme.text.toList ++ after.toList →
            rule.pattern.Matches front → front.length ≤ lexeme.text.toList.length := by
  have tiling := Tiling.of_readFrom read
  refine ⟨tiling, tiling.ordered, fun lexeme member => ?_⟩
  obtain ⟨before, after, whole, start, stop, taken⟩ := tiling.placed lexeme member
  have some := byteLength_pos taken.ne_nil
  rw [byteLength_append] at stop
  refine ⟨by omega, String.ofList before, String.ofList after, ?_, ?_, ?_,
    taken.first.exists_rule, ?_⟩
  · rw [← String.toList_inj, whole]
    simp
  · rw [start, ← byteLength_toList, String.toList_ofList, Nat.zero_add]
  · rw [stop, ← byteLength_toList, String.toList_append, String.toList_ofList, byteLength_append,
      Nat.zero_add]
  · rw [String.toList_ofList]
    exact taken.longest

/-- `<<=` is one operator, the exponent of `1e` is missing, and the block comment
holds a character of two bytes. -/
def crowdedText : String := "x<<=1e+/*é**/.5//y"

def crowdedLexemes : List Lexeme :=
  [⟨.word, "x", .ofLength 0 1⟩, ⟨.punct .other, "<<=", .ofLength 1 3⟩,
    ⟨.number, "1e", .ofLength 4 2⟩, ⟨.punct .other, "+", .ofLength 6 1⟩,
    ⟨.number, ".5", .ofLength 14 2⟩]

theorem lex_crowdedText : lex crowdedText = .ok crowdedLexemes := by cbv

theorem lex_tiling_crowdedText :
    lex crowdedText = .ok crowdedLexemes ∧ Tiling 0 crowdedText.toList crowdedLexemes ∧
      (crowdedLexemes.Pairwise fun first second => first.span.stop ≤ second.span.start) ∧
      ∃ before after : String, crowdedText = before ++ ".5" ++ after ∧
        14 = before.utf8ByteSize ∧ 16 = (before ++ ".5").utf8ByteSize ∧
        (∃ rule ∈ Rule.all, rule.reading = .lexeme .number ∧
          rule.pattern.Matches ['.', '5']) ∧
        ∀ rule ∈ Rule.all, ∀ front, front <+: ['.', '5'] ++ after.toList →
          rule.pattern.Matches front → front.length ≤ 2 := by
  obtain ⟨tiling, ordered, slices⟩ := lex_tiling lex_crowdedText
  have isLast : (⟨.number, ".5", .ofLength 14 2⟩ : Lexeme) ∈ crowdedLexemes := by
    simp [crowdedLexemes]
  exact ⟨lex_crowdedText, tiling, ordered, (slices _ isLast).2⟩

end DeclScan
