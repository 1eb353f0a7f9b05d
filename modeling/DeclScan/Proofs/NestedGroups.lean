import Mathlib
import DeclScan.Proofs.NestedFolding

/-!
# What becomes of nested brackets

In a text whose brackets nest, each round or square pair becomes one group, and
so does each curly pair inside one of these.  All other curly brackets stay as
they are.  Each part follows from `FoldedInto` by induction over the nesting, and
the main statement is `tokenize_nested`.
-/

set_option autoImplicit false

namespace DeclScan

namespace BracketPair

variable (language : Language) (lines : LineIndex) {lexemes : List Lexeme}
  (pair : BracketPair lexemes)

def Delimits (group : Token) : Prop :=
  group.kind = .group pair.bracket ∧ ∃ opener contents closer,
    group.nested = opener :: (contents ++ [closer]) ∧
      opener.leaf = pair.opening.leaf language lines ∧
      closer.leaf = pair.closing.leaf language lines ∧
      (Token.expand contents).map Token.leaf = pair.inside.map (Lexeme.leaf language lines)

def StaysIn (tokens : List Token) : Prop :=
  (∃ opener ∈ tokens, opener.leaf = pair.opening.leaf language lines) ∧
    ∃ closer ∈ tokens, closer.leaf = pair.closing.leaf language lines

def HasEnd (token : Token) : Prop :=
  token.leaf = pair.opening.leaf language lines ∨ token.leaf = pair.closing.leaf language lines

variable {language lines pair}

theorem StaysIn.mono {tokens more : List Token} (stays : pair.StaysIn language lines tokens)
    (subset : tokens ⊆ more) : pair.StaysIn language lines more := by
  obtain ⟨⟨opener, openerMember, isOpener⟩, closer, closerMember, isCloser⟩ := stays
  exact ⟨⟨opener, subset openerMember, isOpener⟩, closer, subset closerMember, isCloser⟩

end BracketPair

def Token.IsBracket (token : Token) : Prop :=
  ∃ bracket, bracket ≠ .angle ∧ (token.kind = .opening bracket ∨ token.kind = .closing bracket)

def Token.IsEndOf (token group : Token) : Prop :=
  (∃ bracket, group.kind = .group bracket) ∧
    (group.nested.head? = some token ∨ group.nested.getLast? = some token)

def Token.firstLeaf? (token : Token) : Option (TokenKind × String × Span × Position) :=
  match token.kind with
  | .group _ => token.nested.head?.map Token.leaf
  | _ => none

section Folded

variable {language : Language} {lines : LineIndex}

/-! ## Tokens of lexemes -/

namespace Token

variable {token group opener closer : Token} {lexeme opening closing : Lexeme} {bracket : Bracket}
  {contents rest : List Token}

theorem single_of_leaf (isLeaf : token.leaf = lexeme.leaf language lines) (bracket : Bracket) :
    token.kind ≠ .group bracket := by
  rw [kind_of_leaf isLeaf]
  exact TokenKind.ofLexeme_ne_group language lexeme bracket

theorem not_isBracket_of_plain (isLeaf : token.leaf = lexeme.leaf language lines)
    (plain : lexeme.isBracket = false) : ¬ token.IsBracket := by
  rintro ⟨bracket, folds, isBracket⟩
  rw [kind_of_leaf isLeaf, TokenKind.ofLexeme_eq_opening_iff, TokenKind.ofLexeme_eq_closing_iff]
    at isBracket
  rcases isBracket with kind | kind <;> simp [Lexeme.isBracket, kind, folds] at plain

theorem not_isBracket_of_group (isGroup : group.kind = .group bracket) : ¬ group.IsBracket := by
  rintro ⟨_, _, isOpening | isClosing⟩
  · rw [isGroup] at isOpening
    cases isOpening
  · rw [isGroup] at isClosing
    cases isClosing

theorem expand_cons_leaf (isLeaf : token.leaf = lexeme.leaf language lines) (rest : List Token) :
    expand (token :: rest) = token :: expand rest := by
  rw [← List.singleton_append, expand_append, expand_single (single_of_leaf isLeaf),
    List.singleton_append]

theorem met_cons_leaf (isLeaf : token.leaf = lexeme.leaf language lines) (rest : List Token) :
    met (token :: rest) = token :: met rest := by
  rw [← List.singleton_append, met_append, met_single (single_of_leaf isLeaf),
    List.singleton_append]

theorem expand_between (openerLeaf : opener.leaf = opening.leaf language lines)
    (closerLeaf : closer.leaf = closing.leaf language lines) (contents rest : List Token) :
    expand (opener :: (contents ++ closer :: rest)) =
      opener :: (expand contents ++ closer :: expand rest) := by
  rw [expand_cons_leaf openerLeaf, expand_append, expand_cons_leaf closerLeaf]

theorem met_between (openerLeaf : opener.leaf = opening.leaf language lines)
    (closerLeaf : closer.leaf = closing.leaf language lines) (contents rest : List Token) :
    met (opener :: (contents ++ closer :: rest)) =
      opener :: (met contents ++ closer :: met rest) := by
  rw [met_cons_leaf openerLeaf, met_append, met_cons_leaf closerLeaf]

theorem met_cons_group (isGroup : group.kind = .group bracket)
    (isNested : group.nested = opener :: (contents ++ [closer]))
    (openerLeaf : opener.leaf = opening.leaf language lines)
    (closerLeaf : closer.leaf = closing.leaf language lines) (rest : List Token) :
    met (group :: rest) = group :: opener :: (met contents ++ closer :: met rest) := by
  rw [← List.singleton_append, met_append, met_group isGroup, isNested,
    met_between openerLeaf closerLeaf]
  simp [met]

theorem expand_cons_group (isGroup : group.kind = .group bracket)
    (isNested : group.nested = opener :: (contents ++ [closer]))
    (openerLeaf : opener.leaf = opening.leaf language lines)
    (closerLeaf : closer.leaf = closing.leaf language lines) (rest : List Token) :
    expand (group :: rest) = opener :: (expand contents ++ closer :: expand rest) := by
  rw [← List.singleton_append, expand_append, expand_group isGroup, isNested,
    expand_between openerLeaf closerLeaf]
  simp [expand]

theorem firstLeaf?_of_leaf (isLeaf : token.leaf = lexeme.leaf language lines) :
    token.firstLeaf? = none := by
  unfold firstLeaf?
  split
  · exact absurd ‹_› (single_of_leaf isLeaf _)
  · rfl

theorem firstLeaf?_of_group (isGroup : group.kind = .group bracket)
    (isNested : group.nested = opener :: rest) : group.firstLeaf? = some opener.leaf := by
  rw [firstLeaf?, isGroup, isNested]
  rfl

end Token

/-! ## Each pair -/

theorem Bracket.curly_ne_angle : Bracket.curly ≠ .angle := nofun

namespace FoldedInto

variable {inside : Bool} {lexemes : List Lexeme} {tokens : List Token}

theorem leaves (folded : FoldedInto language lines inside lexemes tokens) :
    (Token.expand tokens).map Token.leaf = lexemes.map (Lexeme.leaf language lines) := by
  induction folded with
  | nil => rfl
  | plain _ isLeaf _ ih =>
    rw [Token.expand_cons_leaf isLeaf, List.map_cons, isLeaf, ih, List.map_cons]
  | group _ _ _ _ _ openerLeaf closerLeaf isGroup isNested _ _ withinIH restIH =>
    rw [Token.expand_cons_group isGroup isNested openerLeaf closerLeaf]
    simp [openerLeaf, closerLeaf, withinIH, restIH]
  | flat _ _ _ openerLeaf closerLeaf _ _ withinIH restIH =>
    rw [Token.expand_between openerLeaf closerLeaf]
    simp [openerLeaf, closerLeaf, withinIH, restIH]

/-- A pair that makes a group has one.  Inside a region all pairs do. -/
theorem exists_group (folded : FoldedInto language lines inside lexemes tokens)
    (pair : BracketPair lexemes) (makesGroup : inside = true ∨ pair.MakesGroup) :
    ∃ group ∈ Token.met tokens, pair.Delimits language lines group := by
  induction folded with
  | nil => exact absurd pair.length_before_lt (Nat.not_lt_zero _)
  | plain plain isLeaf _ ih =>
    obtain ⟨later, rfl⟩ := BracketPair.exists_of_plain plain pair
    rw [BracketPair.makesGroup_plain_iff plain] at makesGroup
    obtain ⟨group, isMet, delimits⟩ := ih later makesGroup
    rw [Token.met_cons_leaf isLeaf]
    exact ⟨group, List.mem_cons_of_mem _ isMet, delimits⟩
  | @group _ _ _ _ _ rest group opener closer contents _ folds opens closes nested _ openerLeaf
      closerLeaf isGroup isNested foldedWithin _ withinIH restIH =>
    rw [Token.met_cons_group isGroup isNested openerLeaf closerLeaf]
    rcases BracketPair.cases_of_first folds opens closes nested pair with
      rfl | ⟨inner, rfl⟩ | ⟨later, rfl⟩
    · exact ⟨group, List.mem_cons_self, isGroup, opener, contents, closer, isNested, openerLeaf,
        closerLeaf, foldedWithin.leaves⟩
    · obtain ⟨found, isMet, delimits⟩ := withinIH inner (.inl rfl)
      exact ⟨found, by simp [isMet], delimits⟩
    · rw [BracketPair.makesGroup_behind_iff folds opens closes nested] at makesGroup
      obtain ⟨found, isMet, delimits⟩ := restIH later makesGroup
      exact ⟨found, by simp [isMet], delimits⟩
  | flat opens closes nested openerLeaf closerLeaf _ _ withinIH restIH =>
    rw [Token.met_between openerLeaf closerLeaf]
    replace makesGroup := makesGroup.resolve_left nofun
    rcases BracketPair.cases_of_first Bracket.curly_ne_angle opens closes nested pair with
      rfl | ⟨inner, rfl⟩ | ⟨later, rfl⟩
    · rw [BracketPair.makesGroup_first_iff Bracket.curly_ne_angle opens closes nested] at makesGroup
      exact absurd rfl makesGroup
    · rw [BracketPair.makesGroup_inside_iff Bracket.curly_ne_angle opens closes nested] at makesGroup
      obtain ⟨found, isMet, delimits⟩ := withinIH inner (.inr (makesGroup.resolve_left (· rfl)))
      exact ⟨found, by simp [isMet], delimits⟩
    · rw [BracketPair.makesGroup_behind_iff Bracket.curly_ne_angle opens closes nested] at makesGroup
      obtain ⟨found, isMet, delimits⟩ := restIH later (.inr makesGroup)
      exact ⟨found, by simp [isMet], delimits⟩

theorem staysIn (folded : FoldedInto language lines inside lexemes tokens)
    (pair : BracketPair lexemes) (flat : ¬ (inside = true ∨ pair.MakesGroup)) :
    pair.StaysIn language lines tokens := by
  induction folded with
  | nil => exact absurd pair.length_before_lt (Nat.not_lt_zero _)
  | plain plain _ _ ih =>
    obtain ⟨later, rfl⟩ := BracketPair.exists_of_plain plain pair
    rw [BracketPair.makesGroup_plain_iff plain] at flat
    exact (ih later flat).mono (List.subset_cons_self _ _)
  | group folds opens closes nested isOpen _ _ _ _ _ _ _ restIH =>
    rcases BracketPair.cases_of_first folds opens closes nested pair with
      rfl | ⟨inner, rfl⟩ | ⟨later, rfl⟩
    · rw [BracketPair.makesGroup_first_iff folds opens closes nested] at flat
      exact absurd isOpen flat
    · rw [BracketPair.makesGroup_inside_iff folds opens closes nested, ← or_assoc] at flat
      exact absurd (.inl isOpen) flat
    · rw [BracketPair.makesGroup_behind_iff folds opens closes nested] at flat
      exact (restIH later flat).mono (List.subset_cons_self _ _)
  | @flat _ _ _ _ opener closer _ _ opens closes nested openerLeaf closerLeaf _ _ withinIH restIH =>
    rcases BracketPair.cases_of_first Bracket.curly_ne_angle opens closes nested pair with
      rfl | ⟨inner, rfl⟩ | ⟨later, rfl⟩
    · exact ⟨⟨opener, by simp, openerLeaf⟩, closer, by simp, closerLeaf⟩
    · rw [BracketPair.makesGroup_inside_iff Bracket.curly_ne_angle opens closes nested] at flat
      refine (withinIH inner fun makesGroup => flat (makesGroup.imp_right .inr)).mono ?_
      exact List.subset_cons_of_subset _ (List.subset_append_left _ _)
    · rw [BracketPair.makesGroup_behind_iff Bracket.curly_ne_angle opens closes nested] at flat
      refine (restIH later flat).mono fun token member => ?_
      simp [member]

/-- Every group is that of a pair. -/
theorem exists_pair (folded : FoldedInto language lines inside lexemes tokens) {group : Token}
    (isMet : group ∈ Token.met tokens) {bracket : Bracket} (isGroup : group.kind = .group bracket) :
    ∃ pair : BracketPair lexemes,
      (inside = true ∨ pair.MakesGroup) ∧ pair.Delimits language lines group := by
  induction folded with
  | nil => cases isMet
  | plain plain isLeaf _ ih =>
    rw [Token.met_cons_leaf isLeaf] at isMet
    rcases List.mem_cons.1 isMet with rfl | later
    · exact absurd isGroup (Token.single_of_leaf isLeaf bracket)
    · obtain ⟨pair, makesGroup, delimits⟩ := ih later
      exact ⟨_, makesGroup.imp_right (BracketPair.makesGroup_plain_iff plain pair).2, delimits⟩
  | @group _ _ _ _ _ rest whole opener closer contents _ folds opens closes nested isOpen openerLeaf
      closerLeaf wholeGroup isNested foldedWithin _ withinIH restIH =>
    rw [Token.met_cons_group wholeGroup isNested openerLeaf closerLeaf] at isMet
    simp only [List.mem_cons, List.mem_append] at isMet
    rcases isMet with rfl | rfl | within | rfl | behind
    · exact ⟨.first folds opens closes nested rest,
        isOpen.imp_right (BracketPair.makesGroup_first_iff folds opens closes nested).2,
        wholeGroup, opener, contents, closer, isNested, openerLeaf, closerLeaf,
        foldedWithin.leaves⟩
    · exact absurd isGroup (Token.single_of_leaf openerLeaf bracket)
    · obtain ⟨pair, _, delimits⟩ := withinIH within
      exact ⟨_, isOpen.imp_right fun noCurly =>
        (BracketPair.makesGroup_inside_iff folds opens closes nested pair).2 (.inl noCurly), delimits⟩
    · exact absurd isGroup (Token.single_of_leaf closerLeaf bracket)
    · obtain ⟨pair, makesGroup, delimits⟩ := restIH behind
      exact ⟨_, makesGroup.imp_right
        (BracketPair.makesGroup_behind_iff folds opens closes nested pair).2, delimits⟩
  | flat opens closes nested openerLeaf closerLeaf _ _ withinIH restIH =>
    rw [Token.met_between openerLeaf closerLeaf] at isMet
    simp only [List.mem_cons, List.mem_append] at isMet
    rcases isMet with rfl | within | rfl | behind
    · exact absurd isGroup (Token.single_of_leaf openerLeaf bracket)
    · obtain ⟨pair, makesGroup, delimits⟩ := withinIH within
      exact ⟨_, makesGroup.imp_right fun enclosed =>
        (BracketPair.makesGroup_inside_iff Bracket.curly_ne_angle opens closes nested pair).2
          (.inr enclosed), delimits⟩
    · exact absurd isGroup (Token.single_of_leaf closerLeaf bracket)
    · obtain ⟨pair, makesGroup, delimits⟩ := restIH behind
      exact ⟨_, makesGroup.imp_right
        (BracketPair.makesGroup_behind_iff Bracket.curly_ne_angle opens closes nested pair).2, delimits⟩

/-- A bracket that is in no group is that of a pair that makes none. -/
theorem exists_flat (folded : FoldedInto language lines inside lexemes tokens) {token : Token}
    (member : token ∈ tokens) (isBracket : token.IsBracket) :
    ∃ pair : BracketPair lexemes,
      ¬ (inside = true ∨ pair.MakesGroup) ∧ pair.HasEnd language lines token := by
  induction folded with
  | nil => cases member
  | plain plain isLeaf _ ih =>
    rcases List.mem_cons.1 member with rfl | later
    · exact absurd isBracket (Token.not_isBracket_of_plain isLeaf plain)
    · obtain ⟨pair, flat, hasEnd⟩ := ih later
      rw [← BracketPair.makesGroup_plain_iff plain] at flat
      exact ⟨_, flat, hasEnd⟩
  | group folds opens closes nested _ _ _ isGroup _ _ _ _ restIH =>
    rcases List.mem_cons.1 member with rfl | behind
    · exact absurd isBracket (Token.not_isBracket_of_group isGroup)
    · obtain ⟨pair, flat, hasEnd⟩ := restIH behind
      rw [← BracketPair.makesGroup_behind_iff folds opens closes nested] at flat
      exact ⟨_, flat, hasEnd⟩
  | @flat _ _ _ rest _ _ _ _ opens closes nested openerLeaf closerLeaf _ _ withinIH restIH =>
    have firstFlat : ¬ (false = true ∨
        (BracketPair.first Bracket.curly_ne_angle opens closes nested rest).MakesGroup) := by
      rw [BracketPair.makesGroup_first_iff]
      simp
    simp only [List.mem_cons, List.mem_append] at member
    rcases member with rfl | within | rfl | behind
    · exact ⟨_, firstFlat, .inl openerLeaf⟩
    · obtain ⟨pair, flat, hasEnd⟩ := withinIH within
      refine ⟨pair.widen [_] (_ :: rest) rfl, ?_, hasEnd⟩
      rw [BracketPair.makesGroup_inside_iff Bracket.curly_ne_angle opens closes nested]
      simpa using flat
    · exact ⟨_, firstFlat, .inr closerLeaf⟩
    · obtain ⟨pair, flat, hasEnd⟩ := restIH behind
      rw [← BracketPair.makesGroup_behind_iff Bracket.curly_ne_angle opens closes nested] at flat
      exact ⟨_, flat, hasEnd⟩

theorem isEndOf_or_mem (folded : FoldedInto language lines inside lexemes tokens) {token : Token}
    (isMet : token ∈ Token.met tokens) (isBracket : token.IsBracket) :
    (∃ group ∈ Token.met tokens, token.IsEndOf group) ∨ token ∈ tokens := by
  induction folded with
  | nil => cases isMet
  | plain plain isLeaf _ ih =>
    rw [Token.met_cons_leaf isLeaf] at isMet ⊢
    rcases List.mem_cons.1 isMet with rfl | later
    · exact .inr List.mem_cons_self
    · refine (ih later).imp ?_ (List.mem_cons_of_mem _)
      rintro ⟨group, groupMet, isEnd⟩
      exact ⟨group, List.mem_cons_of_mem _ groupMet, isEnd⟩
  | @group _ bracket _ _ _ _ whole _ _ _ _ _ _ _ _ _ openerLeaf closerLeaf isGroup isNested
      foldedWithin _ withinIH restIH =>
    rw [Token.met_cons_group isGroup isNested openerLeaf closerLeaf] at isMet ⊢
    simp only [List.mem_cons, List.mem_append] at isMet
    rcases isMet with rfl | rfl | within | rfl | behind
    · exact .inr List.mem_cons_self
    · exact .inl ⟨whole, List.mem_cons_self, ⟨bracket, isGroup⟩, .inl (by rw [isNested]; rfl)⟩
    · rcases withinIH within with ⟨group, groupMet, isEnd⟩ | member
      · exact .inl ⟨group, by simp [groupMet], isEnd⟩
      · obtain ⟨_, flat, _⟩ := foldedWithin.exists_flat member isBracket
        exact absurd (.inl rfl) flat
    · exact .inl ⟨whole, List.mem_cons_self, ⟨bracket, isGroup⟩,
        .inr (by rw [isNested, ← List.cons_append, List.getLast?_concat])⟩
    · refine (restIH behind).imp ?_ (List.mem_cons_of_mem _)
      rintro ⟨group, groupMet, isEnd⟩
      exact ⟨group, by simp [groupMet], isEnd⟩
  | flat _ _ _ openerLeaf closerLeaf _ _ withinIH restIH =>
    rw [Token.met_between openerLeaf closerLeaf] at isMet ⊢
    simp only [List.mem_cons, List.mem_append] at isMet
    rcases isMet with rfl | within | rfl | behind
    · exact .inr List.mem_cons_self
    · refine (withinIH within).imp ?_ fun member => by simp [member]
      rintro ⟨group, groupMet, isEnd⟩
      exact ⟨group, by simp [groupMet], isEnd⟩
    · exact .inr (by simp)
    · refine (restIH behind).imp ?_ fun member => by simp [member]
      rintro ⟨group, groupMet, isEnd⟩
      exact ⟨group, by simp [groupMet], isEnd⟩

/-- Groups start with different lexemes. -/
theorem firstLeaves_sublist (folded : FoldedInto language lines inside lexemes tokens) :
    ((Token.met tokens).filterMap Token.firstLeaf?).Sublist
      (lexemes.map (Lexeme.leaf language lines)) := by
  induction folded with
  | nil => exact .slnil
  | plain _ isLeaf _ ih =>
    rw [Token.met_cons_leaf isLeaf, List.filterMap_cons_none (Token.firstLeaf?_of_leaf isLeaf)]
    exact ih.cons _
  | group _ _ _ _ _ openerLeaf closerLeaf isGroup isNested _ _ withinIH restIH =>
    have starts := Token.firstLeaf?_of_group isGroup isNested
    rw [openerLeaf] at starts
    rw [Token.met_cons_group isGroup isNested openerLeaf closerLeaf,
      List.filterMap_cons_some starts, List.filterMap_cons_none (Token.firstLeaf?_of_leaf openerLeaf),
      List.filterMap_append, List.filterMap_cons_none (Token.firstLeaf?_of_leaf closerLeaf),
      List.map_cons, List.map_append, List.map_cons]
    exact (withinIH.append (restIH.cons _)).cons_cons _
  | flat _ _ _ openerLeaf closerLeaf _ _ withinIH restIH =>
    rw [Token.met_between openerLeaf closerLeaf,
      List.filterMap_cons_none (Token.firstLeaf?_of_leaf openerLeaf), List.filterMap_append,
      List.filterMap_cons_none (Token.firstLeaf?_of_leaf closerLeaf), List.map_cons,
      List.map_append, List.map_cons]
    exact (withinIH.append (restIH.cons _)).cons _

theorem delimits_unique (folded : FoldedInto language lines inside lexemes tokens)
    (distinct : (lexemes.map (Lexeme.leaf language lines)).Nodup) {pair : BracketPair lexemes}
    {first second : Token} (firstMet : first ∈ Token.met tokens)
    (secondMet : second ∈ Token.met tokens) (firstDelimits : pair.Delimits language lines first)
    (secondDelimits : pair.Delimits language lines second) : first = second := by
  obtain ⟨firstGroup, opener, _, _, firstNested, openerLeaf, _⟩ := firstDelimits
  obtain ⟨secondGroup, other, _, _, secondNested, otherLeaf, _⟩ := secondDelimits
  have firstStarts := Token.firstLeaf?_of_group firstGroup firstNested
  have secondStarts := Token.firstLeaf?_of_group secondGroup secondNested
  rw [openerLeaf] at firstStarts
  rw [otherLeaf] at secondStarts
  have apart := List.pairwise_filterMap.1 (distinct.sublist folded.firstLeaves_sublist)
  have symmetric : Std.Symm fun token later : Token => ∀ leaf, token.firstLeaf? = some leaf →
      ∀ laterLeaf, later.firstLeaf? = some laterLeaf → leaf ≠ laterLeaf :=
    ⟨fun _ _ differ leaf isLeaf laterLeaf isLater => (differ laterLeaf isLater leaf isLeaf).symm⟩
  by_contra different
  exact apart.forall firstMet secondMet different _ firstStarts _ secondStarts rfl

end FoldedInto

end Folded

/-! ## Whole texts -/

theorem Chain.foldedInto_ofLexemes (language : Language) (lines : LineIndex)
    {lexemes : List Lexeme} (nested : Nested lexemes) :
    FoldedInto language lines false lexemes (ofLexemes language lines lexemes).live := by
  obtain ⟨tokens, chain, folds, folded⟩ := foldExtends_of_nested nested .start nofun
  rw [ofLexemes, folds]
  simpa [Folding.finish, Folding.extend, Folding.start, Folding.flatten,
    Folding.flattenRegions] using folded

theorem Tiling.nodup_leaves {offset : Nat} {text : List Char} {lexemes : List Lexeme}
    (tiling : Tiling offset text lexemes) (language : Language) (lines : LineIndex) :
    (lexemes.map (Lexeme.leaf language lines)).Nodup := by
  refine List.pairwise_map.2 (tiling.ordered.imp_of_mem fun {first second} isFirst _ ordered => ?_)
  intro same
  have sameSpan : first.span = second.span := congrArg (fun leaf => leaf.2.2.1) same
  have := tiling.start_lt_stop first isFirst
  rw [sameSpan] at ordered this
  omega

/-- In a text whose round, square and curly brackets nest, a round or square pair
becomes one group, and so does a curly pair that such a pair is around.  All
other brackets stay as they are, in the live list.  There are no more groups, and
any other bracket is the first or the last token of a group. -/
theorem tokenize_nested (source : String) (language : Language) {lexemes : List Lexeme}
    (read : lex source = .ok lexemes) (nested : Nested (lexemes.filter Lexeme.isBracket)) :
    ∃ chain, tokenize source language = .ok chain ∧
      (∀ pair : BracketPair lexemes, pair.MakesGroup → ∃! group, group ∈ chain.stored.toList ∧
        pair.Delimits language (.ofText source.toList) group) ∧
      (∀ pair : BracketPair lexemes, ¬ pair.MakesGroup →
        pair.StaysIn language (.ofText source.toList) chain.live) ∧
      (∀ group ∈ chain.stored.toList, ∀ bracket, group.kind = .group bracket →
        ∃ pair : BracketPair lexemes, pair.MakesGroup ∧
          pair.Delimits language (.ofText source.toList) group) ∧
      ∀ token ∈ chain.stored.toList, token.IsBracket →
        (∃ group ∈ chain.stored.toList, token.IsEndOf group) ∨
          token ∈ chain.live ∧ ∃ pair : BracketPair lexemes,
            ¬ pair.MakesGroup ∧ pair.HasEnd language (.ofText source.toList) token := by
  have distinct := (Tiling.of_readFrom read).nodup_leaves language (.ofText source.toList)
  have folded := Chain.foldedInto_ofLexemes language (.ofText source.toList) (.of_filter nested)
  have met := Chain.met_ofLexemes language (.ofText source.toList) lexemes
  have outside {pair : BracketPair lexemes} (flat : ¬ pair.MakesGroup) :
      ¬ (false = true ∨ pair.MakesGroup) :=
    fun makesGroup => flat (makesGroup.resolve_left nofun)
  refine ⟨_, tokenize_of_lex read, fun pair makesGroup => ?_, fun pair flat => ?_,
    fun group isStored bracket isGroup => ?_, fun token isStored isBracket => ?_⟩
  · obtain ⟨group, isMet, delimits⟩ := folded.exists_group pair (.inr makesGroup)
    refine ⟨group, ⟨met.mem_iff.1 isMet, delimits⟩, ?_⟩
    rintro other ⟨isStored, otherDelimits⟩
    exact folded.delimits_unique distinct (met.mem_iff.2 isStored) isMet otherDelimits delimits
  · exact folded.staysIn pair (outside flat)
  · obtain ⟨pair, makesGroup, delimits⟩ := folded.exists_pair (met.mem_iff.2 isStored) isGroup
    exact ⟨pair, makesGroup.resolve_left nofun, delimits⟩
  · rcases folded.isEndOf_or_mem (met.mem_iff.2 isStored) isBracket with
      ⟨group, isMet, isEnd⟩ | isLive
    · exact .inl ⟨group, met.mem_iff.1 isMet, isEnd⟩
    · obtain ⟨pair, flat, hasEnd⟩ := folded.exists_flat isLive isBracket
      exact .inr ⟨isLive, pair, fun makesGroup => flat (.inr makesGroup), hasEnd⟩

def nestedText : String := "\x7bf(\x7b[]\x7d)\x7d"

def nestedLexemes : List Lexeme :=
  [⟨.opening .curly, "\x7b", .ofLength 0 1⟩, ⟨.word, "f", .ofLength 1 1⟩,
    ⟨.opening .round, "(", .ofLength 2 1⟩, ⟨.opening .curly, "\x7b", .ofLength 3 1⟩,
    ⟨.opening .square, "[", .ofLength 4 1⟩, ⟨.closing .square, "]", .ofLength 5 1⟩,
    ⟨.closing .curly, "\x7d", .ofLength 6 1⟩, ⟨.closing .round, ")", .ofLength 7 1⟩,
    ⟨.closing .curly, "\x7d", .ofLength 8 1⟩]

theorem lex_nestedText : lex nestedText = .ok nestedLexemes := by cbv

theorem nested_squareLexemes : Nested ((nestedLexemes.drop 4).take 2) :=
  @Nested.pair .square _ _ [] [] nofun rfl rfl .nil .nil

theorem nested_curlyLexemes : Nested ((nestedLexemes.drop 3).take 4) :=
  @Nested.pair .curly _ _ ((nestedLexemes.drop 4).take 2) [] nofun rfl rfl nested_squareLexemes .nil

theorem nested_roundLexemes : Nested ((nestedLexemes.drop 2).take 6) :=
  @Nested.pair .round _ _ ((nestedLexemes.drop 3).take 4) [] nofun rfl rfl nested_curlyLexemes .nil

def outerPair : BracketPair nestedLexemes where
  bracket := .curly
  before := []
  opening := nestedLexemes[0]
  inside := (nestedLexemes.drop 1).take 7
  closing := nestedLexemes[8]
  after := []
  whole := rfl
  folds := nofun
  opens := rfl
  closes := rfl
  nested := .plain rfl nested_roundLexemes

def roundPair : BracketPair nestedLexemes where
  bracket := .round
  before := nestedLexemes.take 2
  opening := nestedLexemes[2]
  inside := (nestedLexemes.drop 3).take 4
  closing := nestedLexemes[7]
  after := nestedLexemes.drop 8
  whole := rfl
  folds := nofun
  opens := rfl
  closes := rfl
  nested := nested_curlyLexemes

def innerPair : BracketPair nestedLexemes where
  bracket := .curly
  before := nestedLexemes.take 3
  opening := nestedLexemes[3]
  inside := (nestedLexemes.drop 4).take 2
  closing := nestedLexemes[6]
  after := nestedLexemes.drop 7
  whole := rfl
  folds := nofun
  opens := rfl
  closes := rfl
  nested := nested_squareLexemes

theorem tokenize_nested_nestedText :
    lex nestedText = .ok nestedLexemes ∧ Nested (nestedLexemes.filter Lexeme.isBracket) ∧
      innerPair.MakesGroup ∧ ¬ outerPair.MakesGroup ∧
      ∃ chain, tokenize nestedText .cpp = .ok chain ∧
        (∃! group, group ∈ chain.stored.toList ∧
          innerPair.Delimits .cpp (.ofText nestedText.toList) group) ∧
        outerPair.StaysIn .cpp (.ofText nestedText.toList) chain.live := by
  have nested : Nested (nestedLexemes.filter Lexeme.isBracket) :=
    @Nested.pair .curly _ _ ((nestedLexemes.drop 2).take 6) [] nofun rfl rfl nested_roundLexemes .nil
  have enclosed : innerPair.MakesGroup := .inr ⟨roundPair, .inl rfl, by decide, by decide⟩
  have flat : ¬ outerPair.MakesGroup := by
    rintro (noCurly | ⟨_, _, before, _⟩)
    · exact noCurly rfl
    · exact Nat.not_lt_zero _ before
  obtain ⟨chain, tokenized, groups, brackets, _⟩ := tokenize_nested nestedText .cpp lex_nestedText nested
  exact ⟨lex_nestedText, nested, enclosed, flat, chain, tokenized, groups innerPair enclosed,
    brackets outerPair flat⟩

end DeclScan
