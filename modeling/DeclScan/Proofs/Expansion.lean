import Mathlib
import DeclScan.Chain.Folding

/-!
# Expanding a folded chain

Replacing groups by what is nested in them undoes folding.  What remains are
the lexemes of the text in their order, and every stored token is met once on
the way.  The invariant of folding is `Folding.Unfolds`, and the main statement
is `tokenize_expand`.
-/

set_option autoImplicit false

namespace DeclScan

namespace Token

mutual

/-- The tokens that remain when each group is replaced by what is nested in it,
over and over. -/
def expand : List Token → List Token
  | [] => []
  | token :: rest =>
    match token.kind with
    | .group _ => token.expandInside ++ expand rest
    | _ => token :: expand rest

def expandInside : Token → List Token
  | ⟨_, _, _, _, _, nested⟩ => expand nested

end

mutual

/-- All tokens that expansion meets: those that remain, and each group before
the tokens that replace it. -/
def met : List Token → List Token
  | [] => []
  | token :: rest =>
    match token.kind with
    | .group _ => token :: (token.metInside ++ met rest)
    | _ => token :: met rest

def metInside : Token → List Token
  | ⟨_, _, _, _, _, nested⟩ => met nested

end

theorem expand_append (left right : List Token) :
    expand (left ++ right) = expand left ++ expand right := by
  induction left with
  | nil => rfl
  | cons token rest ih =>
    rw [List.cons_append, expand, expand]
    split
    · rw [ih, List.append_assoc]
    · rw [ih, List.cons_append]

theorem expand_cons (token : Token) (rest : List Token) :
    expand (token :: rest) = expand [token] ++ expand rest := expand_append [token] rest

theorem met_append (left right : List Token) : met (left ++ right) = met left ++ met right := by
  induction left with
  | nil => rfl
  | cons token rest ih =>
    rw [List.cons_append, met, met]
    split
    · rw [ih, List.cons_append, List.append_assoc]
    · rw [ih, List.cons_append]

theorem expand_group {token : Token} {bracket : Bracket} (isGroup : token.kind = .group bracket) :
    expand [token] = expand token.nested := by
  have inside : token.expandInside = expand token.nested := by
    cases token
    rfl
  simp only [expand, isGroup, inside, List.append_nil]

theorem met_group {token : Token} {bracket : Bracket} (isGroup : token.kind = .group bracket) :
    met [token] = token :: met token.nested := by
  have inside : token.metInside = met token.nested := by
    cases token
    rfl
  simp only [met, isGroup, inside, List.append_nil]

theorem expand_single {token : Token} (single : ∀ bracket, token.kind ≠ .group bracket) :
    expand [token] = [token] := by
  rw [expand]
  split
  · exact absurd ‹_› (single _)
  · rfl

theorem met_single {token : Token} (single : ∀ bracket, token.kind ≠ .group bracket) :
    met [token] = [token] := by
  rw [met]
  split
  · exact absurd ‹_› (single _)
  · rfl

theorem mem_met_cons_iff {token first : Token} {rest : List Token} :
    token ∈ met (first :: rest) ↔
      token = first ∨ ((∃ bracket, first.kind = .group bracket) ∧ token ∈ met first.nested) ∨
        token ∈ met rest := by
  rw [← List.singleton_append, met_append, List.mem_append]
  by_cases isGroup : ∃ bracket, first.kind = .group bracket
  · obtain ⟨bracket, isBracket⟩ := isGroup
    simp [met_group isBracket, isBracket, or_assoc]
  · have single : ∀ bracket, first.kind ≠ .group bracket := not_exists.1 isGroup
    simp [met_single single, isGroup]

/-- What expansion meets is there from the start or nested in a group that it
meets. -/
theorem nested_of_mem_met {token : Token} {tokens : List Token} (member : token ∈ met tokens) :
    token ∈ tokens ∨
      ∃ outer ∈ met tokens, (∃ bracket, outer.kind = .group bracket) ∧ token ∈ outer.nested := by
  induction tokens using nested_induction with
  | nil => cases member
  | cons first rest inside ih =>
    rcases mem_met_cons_iff.1 member with rfl | ⟨isGroup, within⟩ | later
    · exact .inl List.mem_cons_self
    · rcases inside within with child | ⟨outer, isMet, found⟩
      · exact .inr ⟨first, mem_met_cons_iff.2 (.inl rfl), isGroup, child⟩
      · exact .inr ⟨outer, mem_met_cons_iff.2 (.inr (.inl ⟨isGroup, isMet⟩)), found⟩
    · rcases ih later with there | ⟨outer, isMet, found⟩
      · exact .inl (List.mem_cons_of_mem first there)
      · exact .inr ⟨outer, mem_met_cons_iff.2 (.inr (.inr isMet)), found⟩

end Token

theorem TokenKind.ofLexeme_ne_group (language : Language) (lexeme : Lexeme) (bracket : Bracket) :
    TokenKind.ofLexeme language lexeme ≠ .group bracket := by
  unfold TokenKind.ofLexeme
  split
  · split <;> exact nofun
  all_goals exact nofun

/-! ## One token of folding -/

namespace Folding

theorem flattenRegions_append (inner more : List Token) (regions : List OpenRegion) :
    flattenRegions (inner ++ more) regions = flattenRegions inner regions ++ more := by
  induction regions generalizing inner with
  | nil => rfl
  | cons region regions ih =>
    rw [flattenRegions, flattenRegions, ← ih]
    simp

theorem flattenRegions_eq (inner : List Token) (regions : List OpenRegion) :
    flattenRegions inner regions = flattenRegions [] regions ++ inner :=
  flattenRegions_append [] inner regions

theorem flatten_open (folding : Folding) (bracket : Bracket) (token : Token) :
    flatten { folding with regions := ⟨bracket, token, #[]⟩ :: folding.regions } =
      folding.flatten ++ [token] := by
  rw [flatten, flatten, flattenRegions, flattenRegions_eq]
  simp

theorem flatten_innermost {folding : Folding} {region : OpenRegion} {regions : List OpenRegion}
    (isOpen : folding.regions = region :: regions) :
    folding.flatten =
      folding.outside.toList ++ flattenRegions [] regions ++
        region.opener :: region.contents.toList := by
  rw [flatten, isOpen, flattenRegions, flattenRegions_eq]
  simp

theorem flatten_add (folding : Folding) (token : Token) :
    (folding.add token).flatten = folding.flatten ++ [token] := by
  unfold add
  split
  · rename_i outermost
    simp [flatten, outermost, flattenRegions]
  · rename_i region regions isOpen
    rw [flatten, flatten, isOpen, flattenRegions, flattenRegions, List.append_assoc,
      ← flattenRegions_append]
    simp

theorem chain_add (folding : Folding) (token : Token) : (folding.add token).chain = folding.chain := by
  unfold add
  split <;> rfl

/-- A token is added behind the others, or it closes a region, which becomes
one group. -/
theorem read_cases (folding : Folding) (token : Token) :
    ((folding.read token).chain = folding.chain ∧
        (folding.read token).flatten = folding.flatten ++ [token]) ∨
      ∃ bracket front opener contents,
        folding.flatten = front ++ opener :: contents ∧
        (folding.read token).chain =
          (folding.chain.storeGroup bracket opener (contents ++ [token])).2 ∧
        (folding.read token).flatten =
          front ++ [(folding.chain.storeGroup bracket opener (contents ++ [token])).1] := by
  have added : (folding.add token).chain = folding.chain ∧
      (folding.add token).flatten = folding.flatten ++ [token] :=
    ⟨chain_add folding token, flatten_add folding token⟩
  unfold read
  split
  · rename_i bracket _
    split
    · exact .inl ⟨rfl, flatten_open folding bracket token⟩
    · exact .inl added
  · rename_i bracket _
    split
    · rename_i region regions isOpen
      split
      · refine .inr ⟨bracket, folding.outside.toList ++ flattenRegions [] regions, region.opener,
          region.contents.toList, flatten_innermost isOpen, ?_, ?_⟩
        · rw [chain_add, Array.toList_push]
        · rw [flatten_add, Array.toList_push]
          rfl
      · exact .inl added
    · exact .inl added
  · exact .inl added

end Folding

/-! ## All lexemes -/

def Chain.Numbered (chain : Chain) : Prop :=
  chain.stored.toList.map Token.id = List.range chain.stored.size

theorem Chain.Numbered.store {chain : Chain} (numbered : chain.Numbered) (kind : TokenKind)
    (text : String) (span : Span) (position : Position) (nested : List Token) :
    (chain.store kind text span position nested).2.Numbered := by
  unfold Chain.Numbered at numbered ⊢
  simp [Chain.store, numbered, List.range_succ]

def Lexeme.leaf (language : Language) (lines : LineIndex) (lexeme : Lexeme) :
    TokenKind × String × Span × Position :=
  (.ofLexeme language lexeme, lexeme.text, lexeme.span, lines.position lexeme.span.start)

def Token.leaf (token : Token) : TokenKind × String × Span × Position :=
  (token.kind, token.text, token.span, token.position)

namespace Folding

/-- The tokens of a folding expand to these lexemes, and every stored token is
met once. -/
structure Unfolds (language : Language) (lines : LineIndex) (folding : Folding)
    (lexemes : List Lexeme) : Prop where
  leaves : (Token.expand folding.flatten).map Token.leaf = lexemes.map (Lexeme.leaf language lines)
  met : (Token.met folding.flatten).Perm folding.chain.stored.toList
  numbered : folding.chain.Numbered

variable {language : Language} {lines : LineIndex} {folding : Folding} {lexemes : List Lexeme}

theorem unfolds_start : start.Unfolds language lines [] where
  leaves := rfl
  met := .nil
  numbered := rfl

theorem expand_read (folding : Folding) (token : Token) :
    Token.expand (folding.read token).flatten = Token.expand (folding.flatten ++ [token]) := by
  rcases read_cases folding token with ⟨_, added⟩ | ⟨_, _, _, _, opened, _, closed⟩
  · rw [added]
  · rw [closed, opened, Token.expand_append, Token.expand_group rfl, List.append_assoc,
      Token.expand_append]
    rfl

/-- A group that reading a token makes is stored, and met before the tokens of
its region. -/
theorem met_read (token : Token)
    (met : (Token.met (folding.flatten ++ [token])).Perm folding.chain.stored.toList) :
    (Token.met (folding.read token).flatten).Perm (folding.read token).chain.stored.toList := by
  rcases read_cases folding token with
    ⟨unchanged, added⟩ | ⟨bracket, front, opener, contents, opened, stored, closed⟩
  · rw [unchanged, added]
    exact met
  · rw [stored, closed, Token.met_append, Token.met_group rfl]
    rw [opened, List.append_assoc, Token.met_append] at met
    refine List.perm_middle.trans ?_
    rw [Chain.storeGroup, Chain.store, Array.toList_push]
    exact (met.cons _).trans (List.perm_append_singleton _ _).symm

theorem numbered_read (token : Token) (numbered : folding.chain.Numbered) :
    (folding.read token).chain.Numbered := by
  rcases read_cases folding token with ⟨unchanged, _⟩ | ⟨_, _, _, _, _, stored, _⟩
  · rw [unchanged]
    exact numbered
  · rw [stored]
    exact numbered.store ..

theorem Unfolds.readLexeme (unfolds : folding.Unfolds language lines lexemes) (lexeme : Lexeme) :
    (folding.readLexeme language lines lexeme).Unfolds language lines (lexemes ++ [lexeme]) := by
  unfold Folding.readLexeme
  have single (bracket : Bracket) :=
    TokenKind.ofLexeme_ne_group language lexeme bracket
  refine ⟨?_, met_read _ ?_, numbered_read _ (unfolds.numbered.store ..)⟩
  · rw [expand_read, Token.expand_append, Token.expand_single single, List.map_append,
      List.map_append]
    congr 1
    exact unfolds.leaves
  · rw [Token.met_append, Token.met_single single]
    simp only [Array.toList_push]
    exact unfolds.met.append_right _

theorem Unfolds.foldl (unfolds : folding.Unfolds language lines lexemes) (more : List Lexeme) :
    (more.foldl (Folding.readLexeme language lines) folding).Unfolds language lines
      (lexemes ++ more) := by
  induction more generalizing folding lexemes with
  | nil => simpa using unfolds
  | cons lexeme more ih =>
    have next := ih (unfolds.readLexeme lexeme)
    rwa [List.append_assoc, List.singleton_append] at next

end Folding

theorem unfolds_ofLexemes (language : Language) (lines : LineIndex) (lexemes : List Lexeme) :
    ∃ folding : Folding, folding.Unfolds language lines lexemes ∧
      Chain.ofLexemes language lines lexemes = folding.finish :=
  ⟨_, Folding.unfolds_start.foldl lexemes, rfl⟩

theorem Chain.met_ofLexemes (language : Language) (lines : LineIndex) (lexemes : List Lexeme) :
    (Token.met (ofLexemes language lines lexemes).live).Perm
      (ofLexemes language lines lexemes).stored.toList := by
  obtain ⟨folding, unfolds, finished⟩ := unfolds_ofLexemes language lines lexemes
  rw [finished]
  exact unfolds.met

/-- Where a text can be read, its chain expands to its lexemes: in their order,
each with its text and span, and where its span starts in the text.  Expansion
meets every stored token exactly once. -/
theorem tokenize_expand (source : String) (language : Language) {lexemes : List Lexeme}
    (read : lex source = .ok lexemes) :
    ∃ chain, tokenize source language = .ok chain ∧
      ((Token.expand chain.live).map fun leaf =>
          (leaf.kind, leaf.text, leaf.span, leaf.position)) =
        (lexemes.map fun lexeme =>
          (TokenKind.ofLexeme language lexeme, lexeme.text, lexeme.span,
            (LineIndex.ofText source.toList).position lexeme.span.start)) ∧
      (Token.met chain.live).Perm chain.stored.toList ∧
      chain.stored.toList.map Token.id = List.range chain.stored.size := by
  obtain ⟨folding, unfolds, finished⟩ :=
    unfolds_ofLexemes language (.ofText source.toList) lexemes
  refine ⟨folding.finish, ?_, unfolds.leaves, unfolds.met, unfolds.numbered⟩
  simp only [tokenize, read, finished]

def mismatchedText : String := "\x7bf([1)]\n\x7b\x7d("

def mismatchedLexemes : List Lexeme :=
  [⟨.opening .curly, "\x7b", .ofLength 0 1⟩, ⟨.word, "f", .ofLength 1 1⟩,
    ⟨.opening .round, "(", .ofLength 2 1⟩, ⟨.opening .square, "[", .ofLength 3 1⟩,
    ⟨.number, "1", .ofLength 4 1⟩, ⟨.closing .round, ")", .ofLength 5 1⟩,
    ⟨.closing .square, "]", .ofLength 6 1⟩, ⟨.opening .curly, "\x7b", .ofLength 8 1⟩,
    ⟨.closing .curly, "\x7d", .ofLength 9 1⟩, ⟨.opening .round, "(", .ofLength 10 1⟩]

theorem lex_mismatchedText : lex mismatchedText = .ok mismatchedLexemes := by cbv

theorem tokenize_expand_mismatchedText :
    lex mismatchedText = .ok mismatchedLexemes ∧
      ∃ chain, tokenize mismatchedText .cpp = .ok chain ∧
        ((Token.expand chain.live).map fun leaf => (leaf.text, leaf.position)) =
          [("\x7b", ⟨0, 0⟩), ("f", ⟨0, 1⟩), ("(", ⟨0, 2⟩), ("[", ⟨0, 3⟩), ("1", ⟨0, 4⟩),
            (")", ⟨0, 5⟩), ("]", ⟨0, 6⟩), ("\x7b", ⟨1, 0⟩), ("\x7d", ⟨1, 1⟩), ("(", ⟨1, 2⟩)] ∧
        (Token.met chain.live).Perm chain.stored.toList ∧
        chain.stored.toList.map Token.id = List.range chain.stored.size := by
  obtain ⟨chain, tokenized, leaves, met, numbered⟩ :=
    tokenize_expand mismatchedText .cpp lex_mismatchedText
  refine ⟨lex_mismatchedText, chain, tokenized, ?_, met, numbered⟩
  have placed := congrArg (List.map fun leaf => (leaf.2.1, leaf.2.2.2)) leaves
  simp only [List.map_map, Function.comp_def] at placed
  rw [placed]
  decide +kernel

end DeclScan
