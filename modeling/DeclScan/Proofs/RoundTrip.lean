import Mathlib
import DeclScan.Proofs.Expansion
import DeclScan.Proofs.Spacing
import DeclScan.Proofs.Tiling
import DeclScan.Proofs.UnplacedScan

/-!
# Reading a chain's own text

The text of a chain holds its lexemes with one blank between any two.  It is
read as the same chain at other places, and scanned with the same result, but
for sinks that look at places: `tokenize_join`.
-/

set_option autoImplicit false

namespace DeclScan

namespace Token

theorem join_singleton (token : Token) : join [token] = token.text := String.intercalate_singleton

theorem join_append {left right : List Token} (leftSome : left ≠ []) (rightSome : right ≠ []) :
    join (left ++ right) = join left ++ " " ++ join right := by
  have leftTexts : left.map text ≠ [] := by simpa using leftSome
  have rightTexts : right.map text ≠ [] := by simpa using rightSome
  rw [join, List.map_append, String.intercalate_append_of_ne_nil leftTexts rightTexts]
  rfl

/-- The text of the token is that of what it expands to, which is something. -/
structure Spelled (token : Token) : Prop where
  expands : expand [token] ≠ []
  text : token.text = join (expand [token])

theorem Spelled.of_single {token : Token} (single : ∀ bracket, token.kind ≠ .group bracket) :
    token.Spelled := by
  refine ⟨?_, ?_⟩
  · rw [expand_single single]
    exact List.cons_ne_nil _ _
  · rw [expand_single single, join_singleton]

theorem expand_ne_nil {tokens : List Token} (notEmpty : tokens ≠ [])
    (spelled : ∀ token ∈ tokens, token.Spelled) : expand tokens ≠ [] := by
  obtain ⟨first, rest, rfl⟩ := List.exists_cons_of_ne_nil notEmpty
  have firstExpands := (spelled first List.mem_cons_self).expands
  rw [expand_cons]
  exact List.append_ne_nil_of_left_ne_nil firstExpands _

theorem join_expand {tokens : List Token} (spelled : ∀ token ∈ tokens, token.Spelled) :
    join (expand tokens) = join tokens := by
  induction tokens with
  | nil => rfl
  | cons first rest ih =>
    obtain ⟨firstSpelled, restSpelled⟩ := List.forall_mem_cons.1 spelled
    by_cases last : rest = []
    · rw [last, ← firstSpelled.text, join_singleton]
    · have restExpands := expand_ne_nil last restSpelled
      rw [← List.singleton_append, expand_append, join_append firstSpelled.expands restExpands,
        join_append (List.cons_ne_nil _ _) last, ih restSpelled, ← firstSpelled.text,
        join_singleton]

end Token

namespace Folding

theorem spelled_read {folding : Folding} {token : Token}
    (spelled : ∀ other ∈ folding.flatten, other.Spelled) (isSpelled : token.Spelled) :
    ∀ other ∈ (folding.read token).flatten, other.Spelled := by
  have allSpelled : ∀ other ∈ folding.flatten ++ [token], other.Spelled := by
    intro other member
    rcases List.mem_append.1 member with before | last
    · exact spelled other before
    · rwa [List.mem_singleton.1 last]
  rcases read_cases folding token with
    ⟨_, added⟩ | ⟨bracket, front, opener, contents, opened, _, closed⟩
  · rwa [added]
  · rw [closed]
    rw [opened, List.append_assoc] at allSpelled
    have regionSpelled : ∀ other ∈ opener :: contents ++ [token], other.Spelled :=
      fun other member => allSpelled other (List.mem_append_right _ member)
    intro other member
    rcases List.mem_append.1 member with before | last
    · exact allSpelled other (List.mem_append_left _ before)
    · rw [List.mem_singleton.1 last]
      refine ⟨?_, ?_⟩
      · rw [Token.expand_group rfl]
        exact Token.expand_ne_nil (List.cons_ne_nil _ _) regionSpelled
      · rw [Token.expand_group rfl]
        exact (Token.join_expand regionSpelled).symm

theorem spelled_foldl (language : Language) (lines : LineIndex) {folding : Folding}
    (spelled : ∀ token ∈ folding.flatten, token.Spelled) (lexemes : List Lexeme) :
    ∀ token ∈ (lexemes.foldl (readLexeme language lines) folding).flatten, token.Spelled := by
  induction lexemes generalizing folding with
  | nil => exact spelled
  | cons lexeme rest ih =>
    refine ih (spelled_read spelled (Token.Spelled.of_single ?_))
    exact TokenKind.ofLexeme_ne_group language lexeme

end Folding

theorem Chain.join_ofLexemes (language : Language) (lines : LineIndex) (lexemes : List Lexeme) :
    (Chain.ofLexemes language lines lexemes).join =
      " ".intercalate (lexemes.map Lexeme.text) := by
  have noneSpelled : ∀ token ∈ Folding.start.flatten, token.Spelled := nofun
  have spelled := Folding.spelled_foldl language lines noneSpelled lexemes
  have unfolds : Folding.Unfolds language lines _ _ := Folding.unfolds_start.foldl lexemes
  have texts := congrArg (List.map fun leaf => leaf.2.1) unfolds.leaves
  rw [List.map_map, List.map_map] at texts
  rw [ofLexemes, join, Folding.finish, ← Token.join_expand spelled, Token.join]
  exact congrArg " ".intercalate texts

/-! ## Reading it again -/

/-- Lexemes with a blank between any two are read as these lexemes. -/
theorem lex_intercalate {source : String} {lexemes : List Lexeme}
    (read : lex source = .ok lexemes) :
    ∃ again, lex (" ".intercalate (lexemes.map Lexeme.text)) = .ok again ∧
      again.map Lexeme.unplaced = lexemes.map Lexeme.unplaced := by
  have alone : ∀ lexeme ∈ lexemes,
      Rule.Takes (.lexeme lexeme.kind) lexeme.text.toList [] := by
    intro lexeme member
    obtain ⟨_, _, _, _, _, taken⟩ := (Tiling.of_readFrom read).placed lexeme member
    exact taken.alone
  obtain ⟨again, readAgain, same⟩ := Lexeme.readFrom_spaced 0 alone
  refine ⟨again, ?_, ?_⟩
  · rw [lex, String.toList_intercalate, List.map_map]
    exact readAgain
  · have unplaced := congrArg (List.map fun parts : LexemeKind × String =>
      (⟨parts.1, parts.2, .ofLength 0 0⟩ : Lexeme)) same
    rw [List.map_map, List.map_map] at unplaced
    exact unplaced

theorem tokenize_of_lex {source : String} {language : Language} {lexemes : List Lexeme}
    (read : lex source = .ok lexemes) :
    tokenize source language = .ok (.ofLexemes language (.ofText source.toList) lexemes) := by
  rw [tokenize, read]

theorem exists_lexemes_of_tokenize {source : String} {language : Language} {chain : Chain}
    (tokenized : tokenize source language = .ok chain) :
    ∃ lexemes, lex source = .ok lexemes ∧
      chain = .ofLexemes language (.ofText source.toList) lexemes := by
  unfold tokenize at tokenized
  cases read : lex source with
  | error fault => simp [read] at tokenized
  | ok lexemes =>
    simp only [read, Except.ok.injEq] at tokenized
    exact ⟨lexemes, rfl, tokenized.symm⟩

theorem exists_again {source : String} {language : Language} {chain : Chain}
    (tokenized : tokenize source language = .ok chain) :
    ∃ again, tokenize chain.join language = .ok again ∧ again.unplaced = chain.unplaced := by
  obtain ⟨lexemes, read, rfl⟩ := exists_lexemes_of_tokenize tokenized
  obtain ⟨lexemesAgain, readAgain, same⟩ := lex_intercalate read
  rw [Chain.join_ofLexemes]
  refine ⟨_, tokenize_of_lex readAgain, ?_⟩
  rw [← Chain.unplaced_ofLexemes, same, Chain.unplaced_ofLexemes]

theorem Chain.join_unplaced (chain : Chain) : chain.unplaced.join = chain.join :=
  Token.join_unplaced chain.live

/-- The text of a chain is read as the same chain at other places, and this
chain has the same text.  Scanning the text finds the same as scanning the
source: the same scopes, live tokens and offers, whatever the sink, and the
same tags if the sink does not see places. -/
theorem tokenize_join {source : String} {language : Language} {chain : Chain}
    (tokenized : tokenize source language = .ok chain) :
    ∃ again, tokenize chain.join language = .ok again ∧ again.unplaced = chain.unplaced ∧
      again.join = chain.join ∧
      ∀ (isHeader : Bool) (scopes : ScopeStack) (σ : Type) (sink : Sink σ) (state : σ),
        let file : SourceFile := ⟨language, isHeader⟩
        let storage := Storage.ofTokens chain.live
        let first := chain.scan sink file storage scopes state
        let second := again.scan sink file storage scopes state
        scanStatement sink file source scopes state = .ok first ∧
          scanStatement sink file chain.join scopes state = .ok second ∧
          second.found = first.found ∧ second.scopes = first.scopes ∧
          second.chain.unplaced = first.chain.unplaced ∧
          (again.offers sink file storage scopes state).map Offer.unplaced =
            (chain.offers sink file storage scopes state).map Offer.unplaced ∧
          ∀ alike : σ → σ → Prop, sink.Sees Offer.unplaced Tag.unplaced alike →
            alike state state →
              alike second.state first.state ∧
                (again.committed sink file storage scopes state).map Tag.unplaced =
                  (chain.committed sink file storage scopes state).map Tag.unplaced := by
  obtain ⟨again, tokenizedAgain, same⟩ := exists_again tokenized
  refine ⟨again, tokenizedAgain, same, ?_, ?_⟩
  · rw [← Chain.join_unplaced, same, Chain.join_unplaced]
  · intro isHeader scopes σ sink state file storage first second
    have sameStorage : Storage.ofTokens again.live = storage := Storage.ofTokens_of_unplaced_eq same
    refine ⟨?_, ?_, ?_, ?_, ?_, ?_, ?_⟩
    · rw [scanStatement, tokenized]
    · rw [scanStatement, tokenizedAgain]
      simp only [sameStorage]
      rfl
    · rw [← Chain.found_unplaced, same, Chain.found_unplaced]
    · rw [Chain.scopes_scan, Chain.scopes_scan]
    · rw [← Chain.chain_unplaced, same, Chain.chain_unplaced]
    · rw [← Chain.offers_unplaced, same, Chain.offers_unplaced]
    · intro alike sees isAlike
      exact Chain.committed_of_unplaced_eq sink file storage scopes same sees isAlike

/-- The number ends in a separator, `u8` is a word before the colons and an encoding
before the quotes, and no parenthesis is closed by a matching one. -/
def tangledText : String := "extern T<U<>>u8::v=1'+u8\"/*\"/ *([)"

def tangledLexemes : List Lexeme :=
  [⟨.word, "extern", .ofLength 0 6⟩, ⟨.word, "T", .ofLength 7 1⟩,
    ⟨.opening .angle, "<", .ofLength 8 1⟩, ⟨.word, "U", .ofLength 9 1⟩,
    ⟨.opening .angle, "<", .ofLength 10 1⟩, ⟨.closing .angle, ">", .ofLength 11 1⟩,
    ⟨.closing .angle, ">", .ofLength 12 1⟩, ⟨.word, "u8", .ofLength 13 2⟩,
    ⟨.punct .doubleColon, "::", .ofLength 15 2⟩, ⟨.word, "v", .ofLength 17 1⟩,
    ⟨.punct .assign, "=", .ofLength 18 1⟩, ⟨.number, "1'", .ofLength 19 2⟩,
    ⟨.punct .other, "+", .ofLength 21 1⟩, ⟨.string, "u8\"/*\"", .ofLength 22 6⟩,
    ⟨.punct .other, "/", .ofLength 28 1⟩, ⟨.punct .star, "*", .ofLength 30 1⟩,
    ⟨.opening .round, "(", .ofLength 31 1⟩, ⟨.opening .square, "[", .ofLength 32 1⟩,
    ⟨.closing .round, ")", .ofLength 33 1⟩]

def tangledChain : Chain := .ofLexemes .cpp (.ofText tangledText.toList) tangledLexemes

def spacedText : String := "extern T < U < > > u8 :: v = 1' + u8\"/*\" / * ( [ )"

theorem tokenize_tangledText : tokenize tangledText .cpp = .ok tangledChain :=
  tokenize_of_lex (by cbv)

theorem join_tangledChain : tangledChain.join = spacedText := by
  rw [tangledChain, Chain.join_ofLexemes]
  decide +kernel

theorem tokenize_join_tangledText :
    tokenize tangledText .cpp = .ok tangledChain ∧
      Collector.sink.Sees Offer.unplaced Tag.unplaced (fun first second =>
        first.accepted = second.accepted ∧
          first.tags.map Tag.unplaced = second.tags.map Tag.unplaced) ∧
      ∃ again, tokenize spacedText .cpp = .ok again ∧ again.unplaced = tangledChain.unplaced ∧
        again.join = spacedText ∧
        ∃ outcome, scanStatement Collector.sink ⟨.cpp, false⟩ spacedText .empty
            (.empty TagKind.all) = .ok outcome ∧
          outcome.found = true ∧
          outcome.state.tags.map Tag.unplaced =
            #[⟨"v", .externalVariable, ⟨0, 0⟩, some "u8", some .inClass, none, false⟩] := by
  obtain ⟨again, tokenized, same, joined, scans⟩ := tokenize_join tokenize_tangledText
  obtain ⟨_, scanned, found, _, _, _, tags⟩ :=
    scans false .empty Collector Collector.sink (.empty TagKind.all)
  rw [join_tangledChain] at tokenized joined scanned
  refine ⟨tokenize_tangledText, Collector.sees_unplaced, again, tokenized, same, joined, _,
    scanned, ?_, ?_⟩
  · rw [found]
    decide +kernel
  · rw [(tags _ Collector.sees_unplaced ⟨rfl, rfl⟩).1.2]
    decide +kernel

/-- Takes what stands before a column of its line, and keeps the committed tags. -/
def Sink.beforeColumn (column : Nat) : Sink (List Tag) where
  start tags offer :=
    (if offer.anchor.position.column < column then some offer.tag else none, tags)
  commit tags tag := tags ++ [tag]

def gappedText : String := "int  x;"

def gappedChain : Chain :=
  .ofLexemes .cpp (.ofText gappedText.toList) [⟨.word, "int", .ofLength 0 3⟩,
    ⟨.word, "x", .ofLength 5 1⟩, ⟨.punct .semicolon, ";", .ofLength 6 1⟩]

def joinedText : String := "int x ;"

def joinedChain : Chain :=
  .ofLexemes .cpp (.ofText joinedText.toList) [⟨.word, "int", .ofLength 0 3⟩,
    ⟨.word, "x", .ofLength 4 1⟩, ⟨.punct .semicolon, ";", .ofLength 6 1⟩]

/-- A sink that sees columns refuses the variable of a text and takes it from
the joined text, where it stands one column before. -/
theorem tags_differ_by_columns :
    tokenize gappedText .cpp = .ok gappedChain ∧ gappedChain.join = joinedText ∧
      ∃ first second,
        scanStatement (.beforeColumn 5) ⟨.cpp, false⟩ gappedText .empty [] = .ok first ∧
          scanStatement (.beforeColumn 5) ⟨.cpp, false⟩ joinedText .empty [] = .ok second ∧
          first.state.map Tag.unplaced = [] ∧
          second.state.map Tag.unplaced =
            [⟨"x", .namespaceVariable, ⟨0, 0⟩, none, none, none, false⟩] := by
  have tokenized : tokenize gappedText .cpp = .ok gappedChain := tokenize_of_lex (by cbv)
  have tokenizedJoin : tokenize joinedText .cpp = .ok joinedChain := tokenize_of_lex (by cbv)
  refine ⟨tokenized, ?_, gappedChain.scan (.beforeColumn 5) ⟨.cpp, false⟩
    (.ofTokens gappedChain.live) .empty [], joinedChain.scan (.beforeColumn 5) ⟨.cpp, false⟩
    (.ofTokens joinedChain.live) .empty [], ?_, ?_, ?_, ?_⟩
  · rw [gappedChain, Chain.join_ofLexemes]
    decide +kernel
  · rw [scanStatement, tokenized]
  · rw [scanStatement, tokenizedJoin]
  · decide +kernel
  · decide +kernel

end DeclScan
