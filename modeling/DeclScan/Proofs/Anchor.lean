import Mathlib
import DeclScan.Proofs.Expansion
import DeclScan.Proofs.Line
import DeclScan.Proofs.NestedSearch
import DeclScan.Proofs.Offers
import DeclScan.Proofs.Tiling

/-!
# Where names stand in the text

Each offer is anchored at an identifier of the text, and its position leads to
the place where the text spells the name.  The anchors are among the leaves of
the chain, in their order, so no identifier is offered twice:
`tokenize_anchors`.
-/

set_option autoImplicit false

namespace DeclScan

namespace Token

theorem filter_spread_sublist (tokens : List Token) :
    ((spread tokens).filter fun token => token.kind.isIdentifier).Sublist (expand tokens) := by
  induction tokens using nested_induction with
  | nil => exact .slnil
  | cons token rest inside ih =>
    rw [spread_cons, List.filter_append, expand_cons]
    refine List.Sublist.append ?_ ih
    by_cases isRound : token.kind = .group .round
    · rw [spread_group isRound, List.filter_append, expand_group isRound,
        List.filter_cons_of_neg (by simp [isRound, TokenKind.isIdentifier]), List.filter_nil,
        List.append_nil]
      exact inside
    rw [spread_single isRound]
    by_cases isName : token.kind = .identifier
    · rw [expand_single (by simp [isName])]
      exact List.filter_sublist
    · rw [List.filter_cons_of_neg (by simp [isName, TokenKind.isIdentifier]), List.filter_nil]
      exact List.nil_sublist _

theorem sublist_of_lastNested? {name : Token} (tokens : List Token)
    (found : lastNested? TokenKind.isIdentifier tokens = some name) :
    name.kind = .identifier ∧ [name].Sublist (expand tokens) := by
  obtain ⟨isName, within⟩ := wanted_of_lastNested? tokens found
  have isSpread : name ∈ (spread tokens).filter fun token => token.kind.isIdentifier :=
    List.mem_filter.2 ⟨mem_spread_iff.2 within, isName⟩
  exact ⟨of_decide_eq_true isName,
    List.singleton_sublist.2 ((filter_spread_sublist tokens).subset isSpread)⟩

end Token

namespace Stretch

variable {stretch : Stretch} {name : Token}

theorem Names.sublist_expand (names : stretch.Names name) :
    name.kind = .identifier ∧ [name].Sublist (Token.expand stretch.tokens) := by
  have held : name.kind = .identifier ∧ [name].Sublist (Token.expand [stretch.holder]) := by
    rcases names.held with ⟨isHolder, isName⟩ | ⟨isGroup, nested⟩
    · refine ⟨isName, ?_⟩
      rw [isHolder, Token.expand_single (by simp [isName])]
    · rw [Token.expand_group isGroup]
      exact Token.sublist_of_lastNested? _ nested
  refine ⟨held.1, ?_⟩
  rw [tokens, Token.expand_append]
  exact held.2.trans (List.sublist_append_right _ _)

theorem sublist_expand_flatMap {stretches : List Stretch} {offers : List Offer}
    (named : List.Forall₂ (fun stretch offer => stretch.Names offer.anchor) stretches offers) :
    (∀ offer ∈ offers, offer.anchor.kind = .identifier) ∧
      (offers.map Offer.anchor).Sublist (Token.expand (stretches.flatMap tokens)) := by
  induction named with
  | nil => exact ⟨nofun, .slnil⟩
  | cons names _ ih =>
    obtain ⟨isName, inStretch⟩ := names.sublist_expand
    obtain ⟨areNames, inOthers⟩ := ih
    refine ⟨List.forall_mem_cons.2 ⟨isName, areNames⟩, ?_⟩
    rw [List.flatMap_cons, Token.expand_append]
    exact inStretch.append inOthers

end Stretch

namespace Chain

variable {σ : Type} (sink : Sink σ) (file : SourceFile) (storage : Storage) (chain : Chain)
  (scopes : ScopeStack) (state : σ)

/-- The anchors of the offers are identifiers among the leaves, in their order. -/
theorem anchors_sublist_expand :
    (∀ offer ∈ chain.offers sink file storage scopes state, offer.anchor.kind = .identifier) ∧
      ((chain.offers sink file storage scopes state).map Offer.anchor).Sublist
        (Token.expand chain.live) := by
  obtain ⟨stretches, rest, whole, _, offered⟩ :=
    exists_stretches sink file storage chain scopes state
  obtain ⟨areNames, inStretches⟩ :=
    Stretch.sublist_expand_flatMap (offered.imp fun _ _ isOffered => isOffered.1)
  refine ⟨areNames, ?_⟩
  rw [whole, Token.expand_append]
  exact inStretches.trans (List.sublist_append_left _ _)

end Chain

namespace Rule

theorem word_patterns : ∀ rule ∈ all, rule.reading = .lexeme .word → rule.pattern = word := by
  decide

theorem not_newline_of_word {text rest : List Char} (taken : Takes (.lexeme .word) text rest) :
    '\n' ∉ text := by
  obtain ⟨rule, member, isWord, matched⟩ := taken.first.exists_rule
  rw [word_patterns rule member isWord] at matched
  simp only [word, Pattern.matches_seq_iff, Pattern.matches_oneOf_iff,
    Pattern.matches_many_oneOf_iff] at matched
  obtain ⟨_, parts, rfl, ⟨start, isStart, rfl⟩, areParts⟩ := matched
  intro newline
  rcases List.mem_append.1 newline with atStart | inParts
  · rw [← List.mem_singleton.1 atStart] at isStart
    exact absurd isStart (by decide)
  · exact absurd (areParts _ inParts) (by decide)

end Rule

theorem TokenKind.word_of_ofLexeme {language : Language} {lexeme : Lexeme}
    (isName : TokenKind.ofLexeme language lexeme = .identifier) : lexeme.kind = .word := by
  unfold ofLexeme at isName
  split at isName
  · assumption
  all_goals cases isName

section Leaves

variable {source : String} {language : Language} {lexemes : List Lexeme} {chain : Chain}

theorem leaves_of_lex (language : Language) (read : lex source = .ok lexemes) :
    ∃ chain, tokenize source language = .ok chain ∧
      (Token.expand chain.live).map Token.leaf =
        lexemes.map (Lexeme.leaf language (.ofText source.toList)) := by
  obtain ⟨folding, unfolds, finished⟩ := unfolds_ofLexemes language (.ofText source.toList) lexemes
  refine ⟨folding.finish, ?_, unfolds.leaves⟩
  simp only [tokenize, read, finished]

theorem starts_increase (read : lex source = .ok lexemes) :
    lexemes.Pairwise fun first second => first.span.start < second.span.start := by
  have tiling := Tiling.of_readFrom read
  refine tiling.ordered.imp_of_mem fun {first second} isFirst _ before => ?_
  obtain ⟨front, _, _, start, stop, taken⟩ := tiling.placed first isFirst
  have some := byteLength_pos taken.ne_nil
  rw [byteLength_append] at stop
  omega

theorem leaves_increase (read : lex source = .ok lexemes)
    (leaves : (Token.expand chain.live).map Token.leaf =
      lexemes.map (Lexeme.leaf language (.ofText source.toList))) :
    (Token.expand chain.live).Pairwise fun first second =>
      first.span.start < second.span.start := by
  have starts := congrArg (List.map fun leaf => leaf.2.2.1.start) leaves
  rw [List.map_map, List.map_map] at starts
  have increase : (lexemes.map fun lexeme => lexeme.span.start).Pairwise (· < ·) :=
    List.pairwise_map.2 (starts_increase read)
  have same : (Token.expand chain.live).map (fun leaf => leaf.span.start) =
      lexemes.map fun lexeme => lexeme.span.start := starts
  rw [← same] at increase
  exact List.pairwise_map.1 increase

/-- The text spells a name at its position. -/
theorem spelled_at_position (read : lex source = .ok lexemes)
    (leaves : (Token.expand chain.live).map Token.leaf =
      lexemes.map (Lexeme.leaf language (.ofText source.toList))) {name : Token}
    (isLeaf : name ∈ Token.expand chain.live) (isName : name.kind = .identifier) :
    ∃ before after,
      (source.toList.splitOn '\n')[name.position.line]? =
        some (before ++ name.text.toList ++ after) ∧
      byteLength before = name.position.column := by
  have inLeaves : name.leaf ∈ (Token.expand chain.live).map Token.leaf :=
    List.mem_map_of_mem isLeaf
  rw [leaves] at inLeaves
  obtain ⟨lexeme, member, same⟩ := List.mem_map.1 inLeaves
  simp only [Lexeme.leaf, Token.leaf, Prod.mk.injEq] at same
  obtain ⟨kind, text, span, position⟩ := same
  obtain ⟨front, behind, whole, start, _, taken⟩ :=
    (Tiling.of_readFrom read).placed lexeme member
  have isWord := TokenKind.word_of_ofLexeme (kind.trans isName)
  rw [isWord] at taken
  have noNewline : ∀ char ∈ lexeme.text.toList, decide (char ≠ '\n') = true := by
    intro char inText
    simp only [decide_eq_true_eq]
    rintro rfl
    exact Rule.not_newline_of_word taken inText
  rw [start, whole, List.append_assoc, Nat.zero_add] at position
  obtain ⟨before, line, column⟩ := LineIndex.exists_line front (lexeme.text.toList ++ behind)
  rw [position] at line column
  rw [List.takeWhile_append_of_pos noNewline, ← List.append_assoc before, text,
    ← List.append_assoc] at line
  exact ⟨before, _, by rw [whole, text, line], column⟩

end Leaves

/-! ## Anchors of offers -/

theorem Chain.name_of_mem_offers {σ : Type} {sink : Sink σ} {file : SourceFile}
    {storage : Storage} {chain : Chain} {scopes : ScopeStack} {state : σ} {offer : Offer}
    (member : offer ∈ chain.offers sink file storage scopes state) :
    offer.name = offer.anchor.text := by
  rw [offers_eq] at member
  obtain ⟨declared, _, rfl⟩ := List.mem_map.1 member
  rfl

/-- Where a text can be read, each offer is anchored at an identifier among the
leaves of its chain, carries the text of that identifier, and is positioned
where the lines of the text spell it.  The anchors of successive offers start at
increasing offsets, so no identifier is offered twice.  This holds for whatever
storage keywords are taken to be seen, and so for the statement as it is scanned. -/
theorem tokenize_anchors {source : String} {lexemes : List Lexeme} (file : SourceFile)
    (read : lex source = .ok lexemes) :
    ∃ chain, tokenize source file.language = .ok chain ∧
      ∀ (σ : Type) (sink : Sink σ) (storage : Storage) (scopes : ScopeStack) (state : σ),
        let offers := chain.offers sink file storage scopes state
        (∀ offer ∈ offers,
          offer.anchor ∈ Token.expand chain.live ∧ offer.anchor.kind = .identifier ∧
            offer.name = offer.anchor.text ∧
            ∃ before after,
              (source.toList.splitOn '\n')[offer.tag.position.line]? =
                some (before ++ offer.name.toList ++ after) ∧
              byteLength before = offer.tag.position.column) ∧
        offers.Pairwise (fun first second =>
          first.anchor.span.start < second.anchor.span.start) ∧
        ∃ outcome, scanStatement sink.logged file source scopes (state, #[]) = .ok outcome ∧
          outcome.state.2.toList =
            chain.offers sink file (.ofTokens chain.live) scopes state := by
  obtain ⟨chain, tokenized, leaves⟩ := leaves_of_lex file.language read
  refine ⟨chain, tokenized, fun σ sink storage scopes state => ?_⟩
  obtain ⟨areNames, anchored⟩ :=
    chain.anchors_sublist_expand sink file storage scopes state
  refine ⟨fun offer member => ?_, ?_, _, by rw [scanStatement, tokenized], rfl⟩
  · have isLeaf := anchored.subset (List.mem_map_of_mem member)
    have isName := areNames offer member
    have named := Chain.name_of_mem_offers member
    refine ⟨isLeaf, isName, named, ?_⟩
    rw [named]
    exact spelled_at_position read leaves isLeaf isName
  · have increase := (leaves_increase read leaves).sublist anchored
    rw [List.pairwise_map] at increase
    exact increase

def twoLines : String := "int A::b,\n (*f)(int);"

def twoLinesLexemes : List Lexeme :=
  [⟨.word, "int", .ofLength 0 3⟩, ⟨.word, "A", .ofLength 4 1⟩,
    ⟨.punct .doubleColon, "::", .ofLength 5 2⟩, ⟨.word, "b", .ofLength 7 1⟩,
    ⟨.punct .comma, ",", .ofLength 8 1⟩, ⟨.opening .round, "(", .ofLength 11 1⟩,
    ⟨.punct .star, "*", .ofLength 12 1⟩, ⟨.word, "f", .ofLength 13 1⟩,
    ⟨.closing .round, ")", .ofLength 14 1⟩, ⟨.opening .round, "(", .ofLength 15 1⟩,
    ⟨.word, "int", .ofLength 16 3⟩, ⟨.closing .round, ")", .ofLength 19 1⟩,
    ⟨.punct .semicolon, ";", .ofLength 20 1⟩]

theorem lex_twoLines : lex twoLines = .ok twoLinesLexemes := by cbv

theorem tokenize_anchors_twoLines :
    lex twoLines = .ok twoLinesLexemes ∧
      ∃ chain, tokenize twoLines .cpp = .ok chain ∧
        let offers := chain.offers Collector.sink ⟨.cpp, false⟩ ⟨false, false⟩ .empty
          (.empty TagKind.all)
        (offers.map fun offer => (offer.name, offer.tag.position)) =
          [("b", ⟨0, 7⟩), ("f", ⟨1, 3⟩)] ∧
        (∀ offer ∈ offers, offer.anchor ∈ Token.expand chain.live) ∧
        offers.Pairwise fun first second =>
          first.anchor.span.start < second.anchor.span.start := by
  obtain ⟨chain, tokenized, anchored⟩ := tokenize_anchors ⟨.cpp, false⟩ lex_twoLines
  obtain ⟨leaves, increase, _⟩ :=
    anchored _ Collector.sink ⟨false, false⟩ .empty (.empty TagKind.all)
  refine ⟨lex_twoLines, chain, tokenized, ?_, fun offer member => (leaves offer member).1, increase⟩
  simp only [tokenize, lex_twoLines, Except.ok.injEq] at tokenized
  rw [← tokenized]
  decide +kernel

end DeclScan
