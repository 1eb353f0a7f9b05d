import Mathlib
import DeclScan.Proofs.Grouping
import DeclScan.Proofs.Nesting

/-!
# Folding nested brackets

In a text whose brackets nest, a pair opens a region and closes it, and the
regions around it are as before.  Only curly brackets outside of all regions
open nothing.  `FoldedInto` describes this by the nesting, with one mode for what
is inside a region and one for what is outside of all, and `foldExtends_of_nested`
says that folding follows it.
-/

set_option autoImplicit false

namespace DeclScan

namespace TokenKind

variable {language : Language} {lexeme : Lexeme} {bracket : Bracket}

theorem ofLexeme_eq_opening_iff :
    ofLexeme language lexeme = .opening bracket ↔ lexeme.kind = .opening bracket := by
  unfold ofLexeme
  cases kind : lexeme.kind with
  | word =>
    dsimp only
    split <;> simp
  | _ => simp

theorem ofLexeme_eq_closing_iff :
    ofLexeme language lexeme = .closing bracket ↔ lexeme.kind = .closing bracket := by
  unfold ofLexeme
  cases kind : lexeme.kind with
  | word =>
    dsimp only
    split <;> simp
  | _ => simp

end TokenKind

namespace Folding

variable {folding : Folding} {lexeme : Lexeme}

def extend (folding : Folding) (chain : Chain) (tokens : List Token) : Folding :=
  match folding.regions with
  | [] => ⟨chain, folding.outside ++ tokens.toArray, []⟩
  | region :: regions =>
    ⟨chain, folding.outside,
      { region with contents := region.contents ++ tokens.toArray } :: regions⟩

theorem extend_nil (folding : Folding) (chain : Chain) :
    folding.extend chain [] = { folding with chain := chain } := by
  obtain ⟨_, outside, regions⟩ := folding
  cases regions <;> simp [extend]

theorem chain_extend (folding : Folding) (chain : Chain) (tokens : List Token) :
    (folding.extend chain tokens).chain = chain := by
  unfold extend
  cases folding.regions <;> rfl

theorem extend_extend (chain later : Chain) (tokens more : List Token) :
    (folding.extend chain tokens).extend later more = folding.extend later (tokens ++ more) := by
  obtain ⟨_, outside, regions⟩ := folding
  cases regions <;> simp [extend]

theorem add_eq_extend (folding : Folding) (token : Token) :
    folding.add token = folding.extend folding.chain [token] := by
  unfold add extend
  cases folding.regions <;> simp

theorem isEmpty_extend (folding : Folding) (chain : Chain) (tokens : List Token) :
    (folding.extend chain tokens).regions.isEmpty = folding.regions.isEmpty := by
  unfold extend
  cases folding.regions <;> rfl

theorem noAngle_extend {folding : Folding} (chain : Chain) (tokens : List Token)
    (noAngle : ∀ region ∈ folding.regions.head?, region.bracket ≠ .angle) :
    ∀ region ∈ (folding.extend chain tokens).regions.head?, region.bracket ≠ .angle := by
  unfold extend
  cases isOpen : folding.regions with
  | nil => exact nofun
  | cons innermost others => simpa [isOpen] using noAngle

end Folding

theorem Token.kind_of_leaf {language : Language} {lines : LineIndex} {token : Token}
    {lexeme : Lexeme} (isLeaf : token.leaf = lexeme.leaf language lines) :
    token.kind = .ofLexeme language lexeme :=
  congrArg Prod.fst isLeaf

namespace Folding

variable (language : Language) (lines : LineIndex) {folding : Folding} {lexeme : Lexeme}

theorem exists_readLexeme (folding : Folding) (lexeme : Lexeme) :
    ∃ token chain, token.leaf = lexeme.leaf language lines ∧
      folding.readLexeme language lines lexeme = (folding.extend chain []).read token := by
  simp only [extend_nil]
  exact ⟨_, _, rfl, rfl⟩

theorem readLexeme_opens {bracket : Bracket} (opens : lexeme.kind = .opening bracket)
    (opened : folding.opens bracket = true) :
    ∃ opener chain, opener.leaf = lexeme.leaf language lines ∧
      folding.readLexeme language lines lexeme =
        ⟨chain, folding.outside, ⟨bracket, opener, #[]⟩ :: folding.regions⟩ := by
  obtain ⟨opener, chain, isLeaf, read⟩ := exists_readLexeme language lines folding lexeme
  have isOpening : opener.kind = .opening bracket :=
    (Token.kind_of_leaf isLeaf).trans (TokenKind.ofLexeme_eq_opening_iff.2 opens)
  refine ⟨opener, chain, isLeaf, ?_⟩
  rw [read, extend_nil]
  simp only [Folding.read, isOpening]
  exact if_pos opened

theorem readLexeme_closes (chain : Chain) (outside : Array Token) (region : OpenRegion)
    (regions : List OpenRegion) (closes : lexeme.kind = .closing region.bracket) :
    ∃ closer group later, closer.leaf = lexeme.leaf language lines ∧
      group.kind = .group region.bracket ∧
      group.nested = region.opener :: (region.contents.toList ++ [closer]) ∧
      readLexeme language lines ⟨chain, outside, region :: regions⟩ lexeme =
        extend ⟨chain, outside, regions⟩ later [group] := by
  obtain ⟨closer, later, isLeaf, read⟩ :=
    exists_readLexeme language lines ⟨chain, outside, region :: regions⟩ lexeme
  have isClosing : closer.kind = .closing region.bracket :=
    (Token.kind_of_leaf isLeaf).trans (TokenKind.ofLexeme_eq_closing_iff.2 closes)
  rw [read, extend_nil]
  rcases read_cases_of_regions ⟨later, outside, region :: regions⟩ closer with
    ⟨_, isOpening, _⟩ | ⟨innermost, others, isOpen, _, closed⟩ | ⟨_, unclosed, _⟩
  · rw [isClosing] at isOpening
    cases isOpening
  · obtain ⟨rfl, rfl⟩ := List.cons.inj isOpen
    rw [closed, close, add_eq_extend, Array.toList_push]
    exact ⟨closer, _, _, isLeaf, rfl, rfl, rfl⟩
  · exact absurd isClosing (unclosed region rfl)

theorem readLexeme_adds
    (unopened : ∀ bracket, lexeme.kind = .opening bracket → folding.opens bracket = false)
    (unclosed : ∀ region ∈ folding.regions.head?, lexeme.kind ≠ .closing region.bracket) :
    ∃ token chain, token.leaf = lexeme.leaf language lines ∧
      folding.readLexeme language lines lexeme = folding.extend chain [token] := by
  obtain ⟨token, chain, isLeaf, read⟩ := exists_readLexeme language lines folding lexeme
  have isKind := Token.kind_of_leaf isLeaf
  refine ⟨token, chain, isLeaf, ?_⟩
  rw [read, extend_nil]
  rcases read_cases_of_regions { folding with chain := chain } token with
    ⟨bracket, isOpening, opened, _⟩ | ⟨region, _, isOpen, isClosing, _⟩ | ⟨_, _, added⟩
  · rw [isKind, TokenKind.ofLexeme_eq_opening_iff] at isOpening
    have : folding.opens bracket = true := opened
    rw [unopened bracket isOpening] at this
    cases this
  · rw [isKind, TokenKind.ofLexeme_eq_closing_iff] at isClosing
    exact absurd isClosing (unclosed region (by simp [show folding.regions = _ from isOpen]))
  · rw [added, add_eq_extend, ← extend_nil, extend_extend, chain_extend]
    rfl

end Folding

section Fold

variable (language : Language) (lines : LineIndex)

/-- How nested lexemes are folded: what is inside a region, and what is outside
of all. -/
inductive FoldedInto : Bool → List Lexeme → List Token → Prop where
  | nil {inside : Bool} : FoldedInto inside [] []
  | plain {inside : Bool} {lexeme : Lexeme} {token : Token} {rest : List Lexeme}
      {tokens : List Token} :
      lexeme.isBracket = false → token.leaf = lexeme.leaf language lines →
      FoldedInto inside rest tokens → FoldedInto inside (lexeme :: rest) (token :: tokens)
  | group {inside : Bool} {bracket : Bracket} {opening closing : Lexeme}
      {within rest : List Lexeme} {group opener closer : Token} {contents tokens : List Token}
      (folds : bracket ≠ .angle) (opens : opening.kind = .opening bracket)
      (closes : closing.kind = .closing bracket) (nested : Nested within) :
      inside = true ∨ bracket ≠ .curly → opener.leaf = opening.leaf language lines →
      closer.leaf = closing.leaf language lines → group.kind = .group bracket →
      group.nested = opener :: (contents ++ [closer]) → FoldedInto true within contents →
      FoldedInto inside rest tokens →
      FoldedInto inside (opening :: (within ++ closing :: rest)) (group :: tokens)
  | flat {opening closing : Lexeme} {within rest : List Lexeme} {opener closer : Token}
      {contents tokens : List Token} (opens : opening.kind = .opening .curly)
      (closes : closing.kind = .closing .curly) (nested : Nested within) :
      opener.leaf = opening.leaf language lines → closer.leaf = closing.leaf language lines →
      FoldedInto false within contents → FoldedInto false rest tokens →
      FoldedInto false (opening :: (within ++ closing :: rest))
        (opener :: (contents ++ closer :: tokens))

def FoldExtends (lexemes : List Lexeme) : Prop :=
  ∀ folding : Folding, (∀ region ∈ folding.regions.head?, region.bracket ≠ .angle) →
    ∃ tokens chain,
      lexemes.foldl (Folding.readLexeme language lines) folding = folding.extend chain tokens ∧
        FoldedInto language lines (!folding.regions.isEmpty) lexemes tokens

open Folding

variable {language lines} {lexeme opening closing : Lexeme} {within rest : List Lexeme}

theorem foldExtends_plain (plain : lexeme.isBracket = false)
    (extendsRest : FoldExtends language lines rest) :
    FoldExtends language lines (lexeme :: rest) := by
  intro folding noAngle
  have unopened : ∀ bracket, lexeme.kind = .opening bracket → folding.opens bracket = false := by
    intro bracket isOpening
    obtain rfl : bracket = .angle := by simpa [Lexeme.isBracket, isOpening] using plain
    rfl
  have unclosed : ∀ region ∈ folding.regions.head?, lexeme.kind ≠ .closing region.bracket := by
    intro region innermost isClosing
    have isAngle : region.bracket = .angle := by simpa [Lexeme.isBracket, isClosing] using plain
    exact noAngle region innermost isAngle
  obtain ⟨token, chain, isLeaf, added⟩ := readLexeme_adds language lines unopened unclosed
  obtain ⟨tokens, later, folded, foldedInto⟩ :=
    extendsRest (folding.extend chain [token]) (noAngle_extend chain [token] noAngle)
  rw [isEmpty_extend] at foldedInto
  refine ⟨token :: tokens, later, ?_, .plain plain isLeaf foldedInto⟩
  rw [List.foldl_cons, added, folded, extend_extend]
  rfl

theorem foldExtends_group {bracket : Bracket} (folds : bracket ≠ .angle)
    (opens : opening.kind = .opening bracket) (closes : closing.kind = .closing bracket)
    (nested : Nested within) (extendsWithin : FoldExtends language lines within)
    (extendsRest : FoldExtends language lines rest) {folding : Folding}
    (noAngle : ∀ region ∈ folding.regions.head?, region.bracket ≠ .angle)
    (opened : folding.opens bracket = true) :
    ∃ tokens chain,
      (opening :: (within ++ closing :: rest)).foldl (readLexeme language lines) folding =
          folding.extend chain tokens ∧
        FoldedInto language lines (!folding.regions.isEmpty)
          (opening :: (within ++ closing :: rest)) tokens := by
  obtain ⟨opener, first, openerLeaf, openedRegion⟩ := readLexeme_opens language lines opens opened
  obtain ⟨contents, second, foldedWithin, contentsInto⟩ := extendsWithin
    ⟨first, folding.outside, ⟨bracket, opener, #[]⟩ :: folding.regions⟩ (by simpa using folds)
  rw [extend] at foldedWithin
  obtain ⟨closer, group, third, closerLeaf, isGroup, isNested, closed⟩ :=
    readLexeme_closes language lines second folding.outside
      ⟨bracket, opener, #[] ++ contents.toArray⟩ folding.regions closes
  have grouped : extend ⟨second, folding.outside, folding.regions⟩ third [group] =
    folding.extend third [group] := rfl
  obtain ⟨tokens, last, foldedRest, restInto⟩ :=
    extendsRest (folding.extend third [group]) (noAngle_extend third [group] noAngle)
  rw [isEmpty_extend] at restInto
  refine ⟨group :: tokens, last, ?_, .group folds opens closes nested ?_ openerLeaf closerLeaf
    isGroup (by simpa using isNested) contentsInto restInto⟩
  · rw [List.foldl_cons, openedRegion, List.foldl_append, foldedWithin, List.foldl_cons, closed,
      grouped, foldedRest, extend_extend]
    rfl
  · cases bracket with
    | curly => exact .inl opened
    | _ => exact .inr nofun

theorem foldExtends_flat (opens : opening.kind = .opening .curly)
    (closes : closing.kind = .closing .curly) (nested : Nested within)
    (extendsWithin : FoldExtends language lines within)
    (extendsRest : FoldExtends language lines rest) {folding : Folding}
    (outside : folding.regions = []) :
    ∃ tokens chain,
      (opening :: (within ++ closing :: rest)).foldl (readLexeme language lines) folding =
          folding.extend chain tokens ∧
        FoldedInto language lines false (opening :: (within ++ closing :: rest)) tokens := by
  have noRegion (chain : Chain) (tokens : List Token) :
      (folding.extend chain tokens).regions = [] := by
    rw [← List.isEmpty_iff, isEmpty_extend, outside]
    rfl
  have noAngle (chain : Chain) (tokens : List Token) :
      ∀ region ∈ (folding.extend chain tokens).regions.head?, region.bracket ≠ .angle := by
    rw [noRegion]
    exact nofun
  have unopened : ∀ bracket, opening.kind = .opening bracket → folding.opens bracket = false := by
    intro bracket isOther
    rw [opens] at isOther
    injection isOther with same
    simp [← same, Folding.opens, outside]
  obtain ⟨opener, first, openerLeaf, addedOpener⟩ :=
    readLexeme_adds language lines unopened (by simp [outside])
  obtain ⟨contents, second, foldedWithin, contentsInto⟩ :=
    extendsWithin (folding.extend first [opener]) (noAngle first [opener])
  rw [extend_extend] at foldedWithin
  have opensNothing : ∀ bracket, closing.kind = .opening bracket →
      (folding.extend second ([opener] ++ contents)).opens bracket = false := by
    simp [closes]
  obtain ⟨closer, third, closerLeaf, addedCloser⟩ :=
    readLexeme_adds language lines opensNothing (by simp [noRegion])
  obtain ⟨tokens, last, foldedRest, restInto⟩ :=
    extendsRest (folding.extend third ([opener] ++ contents ++ [closer])) (noAngle third _)
  rw [noRegion] at contentsInto restInto
  refine ⟨opener :: (contents ++ closer :: tokens), last, ?_,
    .flat opens closes nested openerLeaf closerLeaf contentsInto restInto⟩
  rw [List.foldl_cons, addedOpener, List.foldl_append, foldedWithin, List.foldl_cons, addedCloser,
    extend_extend, foldedRest, extend_extend]
  simp

theorem foldExtends_of_nested {lexemes : List Lexeme} (nested : Nested lexemes) :
    FoldExtends language lines lexemes := by
  induction nested with
  | nil => exact fun folding _ => ⟨[], folding.chain, (folding.extend_nil _).symm, .nil⟩
  | plain plain _ ih => exact foldExtends_plain plain ih
  | @pair bracket opening closing within rest folds opens closes nested _ withinIH restIH =>
    intro folding noAngle
    by_cases opened : folding.opens bracket = true
    · exact foldExtends_group folds opens closes nested withinIH restIH noAngle opened
    · obtain ⟨rfl, outside⟩ : bracket = .curly ∧ folding.regions = [] := by
        cases bracket <;> simp_all [Folding.opens]
      rw [outside]
      exact foldExtends_flat opens closes nested withinIH restIH outside

end Fold

end DeclScan
