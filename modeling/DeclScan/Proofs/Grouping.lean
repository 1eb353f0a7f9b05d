import Mathlib
import DeclScan.Proofs.RoundTrip

/-!
# What groups look like

However its brackets match, a text is folded into groups of one shape.  A group
runs from an opening bracket to a closing one of the same kind, its tokens stand
in the order of the text, and none of those in between could have opened a
region or closed this one.  `Folding.read_cases_of_regions` says all that
reading a token does, `Folding.Tidy` is what it keeps, and the main statement is
`tokenize_groups`.
-/

set_option autoImplicit false

namespace DeclScan

namespace Folding

variable {folding : Folding} {token : Token}

theorem opens_of_ne_angle {region : OpenRegion} {regions : List OpenRegion} {bracket : Bracket}
    (isOpen : folding.regions = region :: regions) (noAngle : bracket ≠ .angle) :
    folding.opens bracket = true := by
  cases bracket with
  | round => rfl
  | square => rfl
  | curly => simp [opens, isOpen]
  | angle => exact absurd rfl noAngle

def close (folding : Folding) (region : OpenRegion) (regions : List OpenRegion)
    (closer : Token) : Folding :=
  let grouped := folding.chain.storeGroup region.bracket region.opener
    (region.contents.push closer).toList
  { folding with chain := grouped.2, regions := regions }.add grouped.1

/-- A token opens a region, closes the innermost one, or stands inside the
innermost one and could do neither. -/
theorem read_cases_of_regions (folding : Folding) (token : Token) :
    (∃ bracket, token.kind = .opening bracket ∧ folding.opens bracket = true ∧
        folding.read token =
          { folding with regions := ⟨bracket, token, #[]⟩ :: folding.regions }) ∨
      (∃ region regions, folding.regions = region :: regions ∧
        token.kind = .closing region.bracket ∧
        folding.read token = folding.close region regions token) ∨
      (∀ bracket, token.kind = .opening bracket → folding.opens bracket = false) ∧
        (∀ region ∈ folding.regions.head?, token.kind ≠ .closing region.bracket) ∧
        folding.read token = folding.add token := by
  unfold read
  split
  · rename_i bracket isOpening
    split
    · rename_i opened
      exact .inl ⟨bracket, isOpening, opened, rfl⟩
    · rename_i unopened
      refine .inr (.inr ⟨fun other isOther => ?_, fun region _ isClosing => ?_, rfl⟩)
      · rw [isOpening] at isOther
        injection isOther with same
        rw [← same]
        exact Bool.not_eq_true _ ▸ unopened
      · rw [isOpening] at isClosing
        cases isClosing
  · rename_i bracket isClosing
    have noOpening (other : Bracket) : token.kind ≠ .opening other := by
      rw [isClosing]
      exact nofun
    split
    · rename_i region regions isOpen
      split
      · rename_i isBracket
        subst isBracket
        exact .inr (.inl ⟨region, regions, isOpen, isClosing, rfl⟩)
      · rename_i otherBracket
        refine .inr (.inr ⟨fun other isOther => absurd isOther (noOpening other), ?_, rfl⟩)
        intro innermost isInnermost isOther
        rw [isOpen, List.head?_cons, Option.mem_some_iff] at isInnermost
        rw [isClosing, ← isInnermost] at isOther
        injection isOther with same
        exact otherBracket same.symm
    · rename_i noRegion
      refine .inr (.inr ⟨fun other isOther => absurd isOther (noOpening other), ?_, rfl⟩)
      rw [noRegion]
      exact nofun
  · rename_i noOpening noClosing
    refine .inr (.inr ⟨fun other isOther => absurd isOther (noOpening other), ?_, rfl⟩)
    intro region _ isClosing
    exact noClosing region.bracket isClosing

theorem regions_add (folding : Folding) (token : Token) :
    (folding.add token).regions =
      match folding.regions with
      | [] => []
      | region :: regions => { region with contents := region.contents.push token } :: regions := by
  unfold add
  cases folding.regions <;> rfl

theorem flatten_close (token : Token) {region : OpenRegion} {regions : List OpenRegion}
    (isOpen : folding.regions = region :: regions) :
    ∃ front, folding.flatten = front ++ region.opener :: region.contents.toList ∧
      (folding.close region regions token).flatten =
        front ++ [(folding.chain.storeGroup region.bracket region.opener
          (region.contents.toList ++ [token])).1] := by
  refine ⟨folding.outside.toList ++ flattenRegions [] regions, flatten_innermost isOpen, ?_⟩
  rw [close, flatten_add, Array.toList_push]
  rfl

theorem chain_close (region : OpenRegion) (regions : List OpenRegion) :
    (folding.close region regions token).chain =
      (folding.chain.storeGroup region.bracket region.opener
        (region.contents.toList ++ [token])).2 := by
  rw [close, chain_add, Array.toList_push]

end Folding

/-! ## The shape of groups -/

/-- The token may stand between these brackets: it would open no region there,
and it does not close this one. -/
structure Token.Between (bracket : Bracket) (token : Token) : Prop where
  opensNothing : ∀ other, other ≠ .angle → token.kind ≠ .opening other
  closesOther : token.kind ≠ .closing bracket

structure Token.InOrder (tokens : List Token) : Prop where
  numbered : tokens.Pairwise fun first second => first.id < second.id
  apart : tokens.Pairwise fun first second => first.span.stop ≤ second.span.start
  some : ∀ token ∈ tokens, token.span.start < token.span.stop
  spelled : ∀ token ∈ tokens, token.Spelled

/-- A group from an opening bracket to a closing one. -/
structure Token.Encloses (group : Token) (bracket : Bracket) (opener : Token)
    (contents : List Token) (closer : Token) : Prop where
  nested : group.nested = opener :: (contents ++ [closer])
  opens : opener.kind = .opening bracket
  closes : closer.kind = .closing bracket
  between : ∀ token ∈ contents, token.Between bracket
  id : group.id = closer.id + 1
  inOrder : Token.InOrder group.nested
  start : group.span.start = opener.span.start
  stop : group.span.stop = closer.span.stop
  within : ∀ token ∈ group.nested,
    group.span.start ≤ token.span.start ∧ token.span.stop ≤ group.span.stop
  position : group.position = opener.position
  text : group.text = Token.join group.nested
  leaves : group.text = Token.join (Token.expand group.nested)

def Token.IsTidy (token : Token) : Prop :=
  ∀ bracket, token.kind = .group bracket →
    bracket ≠ .angle ∧ ∃ opener contents closer, token.Encloses bracket opener contents closer

structure OpenRegion.Pending (region : OpenRegion) : Prop where
  folds : region.bracket ≠ .angle
  opens : region.opener.kind = .opening region.bracket
  between : ∀ token ∈ region.contents.toList, token.Between region.bracket

namespace Token.InOrder

variable {front contents : List Token} {opener closer : Token}

theorem sublist {tokens fewer : List Token} (inOrder : InOrder tokens)
    (isSublist : fewer.Sublist tokens) : InOrder fewer where
  numbered := inOrder.numbered.sublist isSublist
  apart := inOrder.apart.sublist isSublist
  some token member := inOrder.some token (isSublist.subset member)
  spelled token member := inOrder.spelled token (isSublist.subset member)

theorem within (inOrder : InOrder (opener :: (contents ++ [closer]))) :
    ∀ token ∈ opener :: (contents ++ [closer]),
      opener.span.start ≤ token.span.start ∧ token.span.stop ≤ closer.span.stop := by
  obtain ⟨_, apart, some, _⟩ := inOrder
  have fromOpener := (List.pairwise_cons.1 apart).1
  have toCloser := (List.pairwise_append.1 (List.cons_append ▸ apart :
    ((opener :: contents) ++ [closer]).Pairwise _)).2.2
  intro token member
  have isSome := some token member
  have openerSome := some opener List.mem_cons_self
  have closerSome := some closer (by simp)
  constructor
  · rcases List.mem_cons.1 member with rfl | later
    · exact Nat.le_refl _
    · have := fromOpener token later
      omega
  · rw [← List.cons_append] at member
    rcases List.mem_append.1 member with earlier | last
    · have := toCloser token earlier closer (List.mem_singleton.2 rfl)
      omega
    · rw [List.mem_singleton.1 last]

theorem group {group : Token} {bracket : Bracket}
    (inOrder : InOrder (front ++ opener :: (contents ++ [closer])))
    (isGroup : group.kind = .group bracket)
    (encloses : group.Encloses bracket opener contents closer) : InOrder (front ++ [group]) := by
  have openerInOrder : InOrder (front ++ [opener]) :=
    inOrder.sublist (List.Sublist.append_left (by simp) front)
  have whole : ∀ token ∈ opener :: (contents ++ [closer]), token.Spelled := fun token member =>
    inOrder.spelled token (List.mem_append_right _ member)
  have openerBefore : opener.id < group.id := by
    have fromOpener := (List.pairwise_cons.1 (List.pairwise_append.1 inOrder.numbered).2.1).1
    have := fromOpener closer (by simp)
    have := encloses.id
    omega
  have startsBefore : group.span.start < group.span.stop := by
    have := (encloses.within opener (by rw [encloses.nested]; exact List.mem_cons_self)).2
    have := openerInOrder.some opener (by simp)
    rw [encloses.start]
    omega
  have frontBefore := (List.pairwise_append.1 openerInOrder.numbered).2.2
  have frontApart := (List.pairwise_append.1 openerInOrder.apart).2.2
  refine ⟨?_, ?_, ?_, ?_⟩
  · refine List.pairwise_append.2 ⟨(List.pairwise_append.1 inOrder.numbered).1,
      List.pairwise_singleton .., fun token member other isGroupToken => ?_⟩
    rw [List.mem_singleton.1 isGroupToken]
    exact Nat.lt_trans (frontBefore token member opener (by simp)) openerBefore
  · refine List.pairwise_append.2 ⟨(List.pairwise_append.1 inOrder.apart).1,
      List.pairwise_singleton .., fun token member other isGroupToken => ?_⟩
    rw [List.mem_singleton.1 isGroupToken, encloses.start]
    exact frontApart token member opener (by simp)
  · intro token member
    rcases List.mem_append.1 member with before | last
    · exact inOrder.some token (List.mem_append_left _ before)
    · rwa [List.mem_singleton.1 last]
  · intro token member
    rcases List.mem_append.1 member with before | last
    · exact inOrder.spelled token (List.mem_append_left _ before)
    · rw [List.mem_singleton.1 last]
      refine ⟨?_, ?_⟩
      · rw [expand_group isGroup, encloses.nested]
        exact expand_ne_nil (List.cons_ne_nil _ _) whole
      · rw [expand_group isGroup]
        exact encloses.leaves

end Token.InOrder

theorem Chain.encloses_storeGroup (chain : Chain) {bracket : Bracket} {opener closer : Token}
    {contents : List Token} (opens : opener.kind = .opening bracket)
    (closes : closer.kind = .closing bracket)
    (between : ∀ token ∈ contents, token.Between bracket)
    (inOrder : Token.InOrder (opener :: (contents ++ [closer])))
    (newest : chain.stored.size = closer.id + 1) :
    (chain.storeGroup bracket opener (contents ++ [closer])).1.Encloses bracket opener contents
      closer := by
  have span : (chain.storeGroup bracket opener (contents ++ [closer])).1.span =
      opener.span.cover closer.span := by
    simp [storeGroup, store]
  have openerWithin := inOrder.within opener List.mem_cons_self
  have closerWithin := inOrder.within closer (by simp)
  have start : (opener.span.cover closer.span).start = opener.span.start :=
    Nat.min_eq_left closerWithin.1
  have stop : (opener.span.cover closer.span).stop = closer.span.stop :=
    Nat.max_eq_right openerWithin.2
  refine ⟨rfl, opens, closes, between, newest, inOrder, ?_, ?_, ?_, rfl, rfl, ?_⟩
  · rw [span, start]
  · rw [span, stop]
  · rw [span, start, stop]
    exact inOrder.within
  · exact (Token.join_expand inOrder.spelled).symm

/-! ## All lexemes -/

namespace Folding

/-- All groups so far are tidy, the open regions may become tidy groups, and
all tokens stand in order. -/
structure Tidy (folding : Folding) : Prop where
  groups : ∀ token ∈ folding.chain.stored.toList, token.IsTidy
  regions : ∀ region ∈ folding.regions, region.Pending
  inOrder : Token.InOrder folding.flatten
  stored : ∀ token ∈ folding.flatten, token.id < folding.chain.stored.size

variable {folding : Folding} {token : Token}

theorem tidy_start : start.Tidy := ⟨nofun, nofun, ⟨.nil, .nil, nofun, nofun⟩, nofun⟩

theorem pending_add (regions : ∀ region ∈ folding.regions, region.Pending)
    (between : ∀ region ∈ folding.regions.head?, token.Between region.bracket) :
    ∀ region ∈ (folding.add token).regions, region.Pending := by
  rw [regions_add]
  cases isOpen : folding.regions with
  | nil => exact nofun
  | cons innermost others =>
    rw [isOpen] at regions between
    obtain ⟨innermostPending, othersPending⟩ := List.forall_mem_cons.1 regions
    refine List.forall_mem_cons.2 ⟨⟨innermostPending.folds, innermostPending.opens, ?_⟩,
      othersPending⟩
    intro inner member
    rw [Array.toList_push] at member
    rcases List.mem_append.1 member with before | last
    · exact innermostPending.between inner before
    · rw [List.mem_singleton.1 last]
      exact between innermost rfl

theorem Tidy.close {region : OpenRegion} {outer : List OpenRegion}
    (isOpen : folding.regions = region :: outer) (isClosing : token.kind = .closing region.bracket)
    (groups : ∀ token ∈ folding.chain.stored.toList, token.IsTidy)
    (regions : ∀ region ∈ folding.regions, region.Pending)
    (inOrder : Token.InOrder (folding.flatten ++ [token]))
    (bounded : ∀ other ∈ folding.flatten ++ [token], other.id < folding.chain.stored.size)
    (newest : folding.chain.stored.size = token.id + 1) :
    (folding.close region outer token).Tidy := by
  obtain ⟨front, isFlat, closed⟩ := flatten_close token isOpen
  rw [isOpen] at regions
  obtain ⟨pending, outerPending⟩ := List.forall_mem_cons.1 regions
  rw [isFlat, List.append_assoc, List.cons_append] at inOrder bounded
  have encloses := folding.chain.encloses_storeGroup pending.opens isClosing pending.between
    (inOrder.sublist (List.sublist_append_right _ _)) newest
  refine ⟨?_, ?_, ?_, ?_⟩
  · rw [chain_close]
    intro other member
    rw [Chain.storeGroup, Chain.store, Array.toList_push] at member
    rcases List.mem_append.1 member with before | last
    · exact groups other before
    · rw [List.mem_singleton.1 last]
      intro bracket isGroup
      injection isGroup with same
      rw [← same]
      exact ⟨pending.folds, _, _, _, encloses⟩
  · refine pending_add outerPending fun _ _ => ⟨fun _ _ isOpening => ?_, fun isOther => ?_⟩
    · cases isOpening
    · cases isOther
  · rw [closed]
    exact inOrder.group rfl encloses
  · rw [closed, chain_close]
    intro other member
    have isStored : other.id < folding.chain.stored.size + 1 := by
      rcases List.mem_append.1 member with before | last
      · exact Nat.lt_succ_of_lt (bounded other (List.mem_append_left _ before))
      · rw [List.mem_singleton.1 last]
        exact Nat.lt_succ_self _
    simpa [Chain.storeGroup, Chain.store] using isStored

theorem Tidy.read (groups : ∀ token ∈ folding.chain.stored.toList, token.IsTidy)
    (regions : ∀ region ∈ folding.regions, region.Pending)
    (inOrder : Token.InOrder (folding.flatten ++ [token]))
    (newest : folding.chain.stored.size = token.id + 1) : (folding.read token).Tidy := by
  have bounded : ∀ other ∈ folding.flatten ++ [token], other.id < folding.chain.stored.size := by
    intro other member
    rcases List.mem_append.1 member with before | last
    · have := (List.pairwise_append.1 inOrder.numbered).2.2 other before token (by simp)
      omega
    · rw [List.mem_singleton.1 last]
      omega
  rcases read_cases_of_regions folding token with
    ⟨bracket, isOpening, opened, read⟩ | ⟨region, outer, isOpen, isClosing, read⟩ |
      ⟨unopened, unclosed, read⟩
  · rw [read]
    have folds : bracket ≠ .angle := by
      rintro rfl
      cases opened
    refine ⟨groups, List.forall_mem_cons.2 ⟨⟨folds, isOpening, by simp⟩, regions⟩, ?_, ?_⟩
    · rw [flatten_open]
      exact inOrder
    · rw [flatten_open]
      exact bounded
  · rw [read]
    exact Tidy.close isOpen isClosing groups regions inOrder bounded newest
  · rw [read]
    refine ⟨?_, ?_, ?_, ?_⟩
    · rw [chain_add]
      exact groups
    · refine pending_add regions fun region isInnermost => ⟨fun other noAngle isOther => ?_, ?_⟩
      · obtain ⟨outer, isOpen⟩ := List.head?_eq_some_iff.1 isInnermost
        have := unopened other isOther
        rw [opens_of_ne_angle isOpen noAngle] at this
        cases this
      · exact unclosed region isInnermost
    · rw [flatten_add]
      exact inOrder
    · rw [flatten_add, chain_add]
      exact bounded

/-- A group ends where its last token does. -/
theorem stop_le_of_read {bound : Nat}
    (before : ∀ other ∈ folding.flatten ++ [token], other.span.stop ≤ bound) :
    ∀ other ∈ (folding.read token).flatten, other.span.stop ≤ bound := by
  rcases read_cases folding token with
    ⟨_, added⟩ | ⟨bracket, front, opener, contents, opened, _, closed⟩
  · rw [added]
    exact before
  · rw [closed]
    rw [opened] at before
    intro other member
    rcases List.mem_append.1 member with earlier | last
    · exact before other (by simp [earlier])
    · have openerStop := before opener (by simp)
      have tokenStop := before token (by simp)
      rw [List.mem_singleton.1 last]
      simpa [Chain.storeGroup, Chain.store, Span.cover] using ⟨openerStop, tokenStop⟩

theorem Tidy.readLexeme (tidy : folding.Tidy) (language : Language) (lines : LineIndex)
    {lexeme : Lexeme} (some : lexeme.span.start < lexeme.span.stop)
    (behind : ∀ token ∈ folding.flatten, token.span.stop ≤ lexeme.span.start) :
    (folding.readLexeme language lines lexeme).Tidy ∧
      ∀ token ∈ (folding.readLexeme language lines lexeme).flatten,
        token.span.stop ≤ lexeme.span.stop := by
  unfold Folding.readLexeme
  have single (bracket : Bracket) := TokenKind.ofLexeme_ne_group language lexeme bracket
  refine ⟨Tidy.read ?_ tidy.regions ⟨?_, ?_, ?_, ?_⟩ ?_, stop_le_of_read ?_⟩
  · intro token member
    rw [Array.toList_push] at member
    rcases List.mem_append.1 member with before | last
    · exact tidy.groups token before
    · rw [List.mem_singleton.1 last]
      intro bracket isGroup
      exact absurd isGroup (single bracket)
  · refine List.pairwise_append.2 ⟨tidy.inOrder.numbered, List.pairwise_singleton .., ?_⟩
    intro token member other isNew
    rw [List.mem_singleton.1 isNew]
    exact tidy.stored token member
  · refine List.pairwise_append.2 ⟨tidy.inOrder.apart, List.pairwise_singleton .., ?_⟩
    intro token member other isNew
    rw [List.mem_singleton.1 isNew]
    exact behind token member
  · intro token member
    rcases List.mem_append.1 member with before | last
    · exact tidy.inOrder.some token before
    · rwa [List.mem_singleton.1 last]
  · intro token member
    rcases List.mem_append.1 member with before | last
    · exact tidy.inOrder.spelled token before
    · rw [List.mem_singleton.1 last]
      exact .of_single single
  · simp
  · intro token member
    rcases List.mem_append.1 member with before | last
    · have := behind token before
      omega
    · rw [List.mem_singleton.1 last]

theorem Tidy.foldl (tidy : folding.Tidy) (language : Language) (lines : LineIndex)
    {lexemes : List Lexeme} (some : ∀ lexeme ∈ lexemes, lexeme.span.start < lexeme.span.stop)
    (ordered : lexemes.Pairwise fun first second => first.span.stop ≤ second.span.start)
    (behind : ∀ token ∈ folding.flatten, ∀ lexeme ∈ lexemes,
      token.span.stop ≤ lexeme.span.start) :
    (lexemes.foldl (Folding.readLexeme language lines) folding).Tidy := by
  induction lexemes generalizing folding with
  | nil => exact tidy
  | cons lexeme lexemes ih =>
    obtain ⟨lexemeSome, othersSome⟩ := List.forall_mem_cons.1 some
    obtain ⟨lexemeFirst, othersOrdered⟩ := List.pairwise_cons.1 ordered
    obtain ⟨next, upTo⟩ := tidy.readLexeme language lines lexemeSome
      fun token member => behind token member lexeme List.mem_cons_self
    refine ih next othersSome othersOrdered fun token member later isLater => ?_
    exact Nat.le_trans (upTo token member) (lexemeFirst later isLater)

end Folding

/-- Whatever brackets a text has, all groups of its chain are alike.  A group is
between round, square or curly brackets.  It starts with a plain opening bracket
and ends with the plain closing one of the same kind, which is stored right
before the group.  No token in between opens a region or closes this one.  The
tokens are numbered upwards and do not overlap, the span of the group reaches
from the first to the last of them, its position is that of the first, and its
text is theirs and that of all its leaves. -/
theorem tokenize_groups (source : String) (language : Language) {lexemes : List Lexeme}
    (read : lex source = .ok lexemes) :
    ∃ chain, tokenize source language = .ok chain ∧
      ∀ group ∈ chain.stored.toList, ∀ bracket, group.kind = .group bracket →
        bracket ≠ .angle ∧ 2 ≤ group.nested.length ∧
          ∃ opener contents closer, group.Encloses bracket opener contents closer := by
  have tiling := Tiling.of_readFrom read
  have tidy := Folding.tidy_start.foldl language (.ofText source.toList) tiling.start_lt_stop
    tiling.ordered nofun
  refine ⟨_, tokenize_of_lex read, fun group member bracket isGroup => ?_⟩
  obtain ⟨folds, opener, contents, closer, encloses⟩ := tidy.groups group member bracket isGroup
  refine ⟨folds, ?_, opener, contents, closer, encloses⟩
  simp [encloses.nested]

/-- The parenthesis in the square brackets closes nothing there, and the outer one
is never closed. -/
def crossedText : String := "(\x7b[)\nx]\x7d"

def crossedLexemes : List Lexeme :=
  [⟨.opening .round, "(", .ofLength 0 1⟩, ⟨.opening .curly, "\x7b", .ofLength 1 1⟩,
    ⟨.opening .square, "[", .ofLength 2 1⟩, ⟨.closing .round, ")", .ofLength 3 1⟩,
    ⟨.word, "x", .ofLength 5 1⟩, ⟨.closing .square, "]", .ofLength 6 1⟩,
    ⟨.closing .curly, "\x7d", .ofLength 7 1⟩]

theorem lex_crossedText : lex crossedText = .ok crossedLexemes := by cbv

def crossedChain : Chain := .ofLexemes .c (.ofText crossedText.toList) crossedLexemes

theorem tokenize_groups_crossedText :
    lex crossedText = .ok crossedLexemes ∧ tokenize crossedText .c = .ok crossedChain ∧
      ∃ inner ∈ crossedChain.stored.toList, ∃ outer ∈ crossedChain.stored.toList,
        inner.text = "[ ) x ]" ∧ outer.text = "\x7b [ ) x ] \x7d" ∧
        (∃ opener contents closer, inner.Encloses .square opener contents closer) ∧
        ∃ opener contents closer, outer.Encloses .curly opener contents closer := by
  obtain ⟨chain, tokenized, groups⟩ := tokenize_groups crossedText .c lex_crossedText
  have isChain : tokenize crossedText .c = .ok crossedChain := tokenize_of_lex lex_crossedText
  obtain rfl := Except.ok.inj (isChain.symm.trans tokenized)
  have isInner : (TokenKind.group .square, "[ ) x ]") ∈
      crossedChain.stored.toList.map fun token => (token.kind, token.text) := by
    decide +kernel
  have isOuter : (TokenKind.group .curly, "\x7b [ ) x ] \x7d") ∈
      crossedChain.stored.toList.map fun token => (token.kind, token.text) := by
    decide +kernel
  obtain ⟨inner, innerStored, isInner⟩ := List.mem_map.1 isInner
  obtain ⟨outer, outerStored, isOuter⟩ := List.mem_map.1 isOuter
  obtain ⟨innerKind, innerText⟩ := Prod.mk.inj isInner
  obtain ⟨outerKind, outerText⟩ := Prod.mk.inj isOuter
  exact ⟨lex_crossedText, isChain, inner, innerStored, outer, outerStored, innerText, outerText,
    (groups inner innerStored .square innerKind).2.2,
    (groups outer outerStored .curly outerKind).2.2⟩

end DeclScan
