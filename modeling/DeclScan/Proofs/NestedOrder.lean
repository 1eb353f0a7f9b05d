import Mathlib
import DeclScan.Proofs.Anchor
import DeclScan.Proofs.Identity
import DeclScan.Proofs.NestedSearch
import DeclScan.Proofs.RoundTrip

/-!
# The order of a search through parentheses

The search for a nested token can look up identities in the store of a chain.  It
ends because what is nested in a group is stored before the group, and it looks at
the spread tokens from the back, up to the first one that is wanted.  In the chain
of a text, the identifier that it finds is the one that stands furthest behind in
the text.  The main statement is `Chain.search_last`.
-/

set_option autoImplicit false

namespace DeclScan

namespace Token

theorem exists_reverse_spread (token : Token) :
    ∃ within, (spread [token]).reverse = token :: within := by
  by_cases isGroup : token.kind = .group .round
  · exact ⟨(spread token.nested).reverse, by rw [spread_group isGroup]; simp⟩
  · exact ⟨[], by rw [spread_single isGroup]; rfl⟩

section Search

variable (wanted : TokenKind → Bool)

def upTo : List Token → List Token
  | [] => []
  | token :: rest => token :: if wanted token.kind then [] else upTo rest

theorem upTo_append_of_none {front : List Token} (back : List Token)
    (nothing : front.find? (fun token => wanted token.kind) = none) :
    upTo wanted (front ++ back) = front ++ upTo wanted back := by
  induction front with
  | nil => rfl
  | cons token rest ih =>
    rw [List.find?_cons] at nothing
    split at nothing
    · cases nothing
    · rename_i unwanted
      rw [List.cons_append, upTo, unwanted, if_neg Bool.false_ne_true, ih nothing,
        List.cons_append]

theorem upTo_of_find?_eq_none {tokens : List Token}
    (nothing : tokens.find? (fun token => wanted token.kind) = none) :
    upTo wanted tokens = tokens := by
  have whole := upTo_append_of_none wanted [] nothing
  rwa [upTo, List.append_nil] at whole

theorem upTo_append_of_some {front : List Token} {found : Token} (back : List Token)
    (isFound : front.find? (fun token => wanted token.kind) = some found) :
    upTo wanted (front ++ back) = upTo wanted front := by
  induction front with
  | nil => cases isFound
  | cons token rest ih =>
    rw [List.cons_append, upTo, upTo]
    rw [List.find?_cons] at isFound
    split at isFound
    · rename_i isWanted
      rw [if_pos isWanted, if_pos isWanted]
    · rename_i unwanted
      rw [unwanted, if_neg Bool.false_ne_true, if_neg Bool.false_ne_true, ih isFound]

/-- The identities that a search of the tokens comes across, and its answer. -/
def Sought (tokens : List Token) (looked : List Nat) (answer : Option Nat) : Prop :=
  looked = (upTo wanted (spread tokens).reverse).map Token.id ∧
    answer = (lastNested? wanted tokens).map Token.id

variable {wanted} {token : Token} {looked : List Nat} {answer : Option Nat}

theorem sought_wanted_iff (front : List Token) (isWanted : wanted token.kind = true) :
    Sought wanted (front ++ [token]) looked answer ↔
      looked = [token.id] ∧ answer = some token.id := by
  obtain ⟨within, isBack⟩ := exists_reverse_spread token
  rw [Sought, spread_append, List.reverse_append, isBack, List.cons_append, upTo,
    if_pos isWanted, lastNested?_append, lastNested?_singleton, if_pos isWanted]
  rfl

theorem sought_other_iff (front : List Token) (unwanted : wanted token.kind = false)
    (noGroup : token.kind ≠ .group .round) :
    Sought wanted (front ++ [token]) looked answer ↔
      ∃ further, Sought wanted front further answer ∧ looked = token.id :: further := by
  rw [Sought, spread_append, List.reverse_append, spread_single noGroup, List.reverse_singleton,
    List.singleton_append, upTo, unwanted, if_neg Bool.false_ne_true, lastNested?_append,
    lastNested?_of_unwanted unwanted noGroup, Option.none_or]
  constructor
  · rintro ⟨rfl, isAnswer⟩
    exact ⟨_, ⟨rfl, isAnswer⟩, rfl⟩
  · rintro ⟨_, ⟨rfl, isAnswer⟩, rfl⟩
    exact ⟨rfl, isAnswer⟩

theorem sought_group_iff (front : List Token) (unwanted : wanted token.kind = false)
    (isGroup : token.kind = .group .round) :
    Sought wanted (front ++ [token]) looked answer ↔
      ∃ within result, Sought wanted token.nested within result ∧
        ((∃ found, result = some found ∧ looked = token.id :: within ∧ answer = some found) ∨
          result = none ∧ ∃ further, Sought wanted front further answer ∧
            looked = token.id :: (within ++ further)) := by
  have isFound := @lastNested?_eq_find? wanted token.nested
  rw [Sought, spread_append, List.reverse_append, spread_group isGroup, List.reverse_append,
    List.reverse_singleton, List.singleton_append, List.cons_append, upTo, unwanted,
    if_neg Bool.false_ne_true, lastNested?_append,
    lastNested?_of_group (isGroup ▸ unwanted) isGroup]
  cases found : lastNested? wanted token.nested with
  | none =>
    rw [found] at isFound
    rw [upTo_append_of_none wanted _ isFound.symm, List.map_cons, List.map_append, Option.none_or]
    have within : Sought wanted token.nested ((spread token.nested).reverse.map Token.id) none := by
      rw [Sought, upTo_of_find?_eq_none wanted isFound.symm, found]
      exact ⟨rfl, rfl⟩
    constructor
    · rintro ⟨rfl, isAnswer⟩
      exact ⟨_, none, within, .inr ⟨rfl, _, ⟨rfl, isAnswer⟩, rfl⟩⟩
    · rintro ⟨_, result, ⟨rfl, isResult⟩, ⟨name, rfl, _⟩ | ⟨_, _, ⟨rfl, isAnswer⟩, rfl⟩⟩
      · rw [found] at isResult
        cases isResult
      · rw [within.1]
        exact ⟨rfl, isAnswer⟩
  | some name =>
    rw [found] at isFound
    rw [upTo_append_of_some wanted _ isFound.symm, List.map_cons, Option.some_or]
    constructor
    · rintro ⟨rfl, rfl⟩
      exact ⟨_, some name.id, ⟨rfl, by rw [found]; rfl⟩, .inl ⟨_, rfl, rfl, rfl⟩⟩
    · rintro ⟨_, result, ⟨rfl, isResult⟩, ⟨_, rfl, rfl, rfl⟩ | ⟨rfl, _⟩⟩
      · rw [found] at isResult
        exact ⟨rfl, isResult⟩
      · rw [found] at isResult
        cases isResult

end Search

end Token

/-! ## Searching by identities -/

namespace Chain

def NestsBefore (chain : Chain) : Prop :=
  ∀ (id : Nat) (token : Token), chain.stored[id]? = some token →
    ∀ child ∈ token.nested, chain.Stores child ∧ child.id < id

/-- A run of the search through identities, of which the next one to look at comes
first.  It looks up the tokens of some identities, one after the other, and ends
with an answer. -/
inductive Searches (chain : Chain) (wanted : TokenKind → Bool) :
    List Nat → List Nat → Option Nat → Prop where
  | nothing : Searches chain wanted [] [] none
  | here {id : Nat} {token : Token} {ids : List Nat} : chain.stored[id]? = some token →
      wanted token.kind = true → Searches chain wanted (id :: ids) [id] (some id)
  | inside {id found : Nat} {token : Token} {ids looked : List Nat} :
      chain.stored[id]? = some token → wanted token.kind = false →
      token.kind = .group .round →
      Searches chain wanted (token.nested.map Token.id).reverse looked (some found) →
      Searches chain wanted (id :: ids) (id :: looked) (some found)
  | past {id : Nat} {token : Token} {ids looked further : List Nat} {answer : Option Nat} :
      chain.stored[id]? = some token → wanted token.kind = false →
      token.kind = .group .round →
      Searches chain wanted (token.nested.map Token.id).reverse looked none →
      Searches chain wanted ids further answer →
      Searches chain wanted (id :: ids) (id :: (looked ++ further)) answer
  | other {id : Nat} {token : Token} {ids looked : List Nat} {answer : Option Nat} :
      chain.stored[id]? = some token → wanted token.kind = false →
      token.kind ≠ .group .round → Searches chain wanted ids looked answer →
      Searches chain wanted (id :: ids) (id :: looked) answer

section Runs

variable {chain : Chain} {wanted : TokenKind → Bool} {id : Nat} {token : Token}
  {ids looked : List Nat} {answer : Option Nat}

theorem eq_of_stored {other : Token} (isStored : chain.stored[id]? = some token)
    (isOther : chain.stored[id]? = some other) : other = token :=
  Option.some.inj (isOther.symm.trans isStored)

theorem searches_nil_iff :
    chain.Searches wanted [] looked answer ↔ looked = [] ∧ answer = none := by
  constructor
  · intro searches
    cases searches
    exact ⟨rfl, rfl⟩
  · rintro ⟨rfl, rfl⟩
    exact .nothing

theorem searches_wanted_iff (isStored : chain.stored[id]? = some token)
    (isWanted : wanted token.kind = true) :
    chain.Searches wanted (id :: ids) looked answer ↔ looked = [id] ∧ answer = some id := by
  constructor
  · intro searches
    cases searches with
    | here => exact ⟨rfl, rfl⟩
    | inside isOther unwanted | past isOther unwanted | other isOther unwanted =>
      rw [eq_of_stored isStored isOther, isWanted] at unwanted
      cases unwanted
  · rintro ⟨rfl, rfl⟩
    exact .here isStored isWanted

theorem searches_other_iff (isStored : chain.stored[id]? = some token)
    (unwanted : wanted token.kind = false) (noGroup : token.kind ≠ .group .round) :
    chain.Searches wanted (id :: ids) looked answer ↔
      ∃ further, chain.Searches wanted ids further answer ∧ looked = id :: further := by
  constructor
  · intro searches
    cases searches with
    | here isOther isWanted =>
      rw [eq_of_stored isStored isOther, unwanted] at isWanted
      cases isWanted
    | inside isOther _ isGroup | past isOther _ isGroup =>
      rw [eq_of_stored isStored isOther] at isGroup
      exact absurd isGroup noGroup
    | other _ _ _ further => exact ⟨_, further, rfl⟩
  · rintro ⟨further, searches, rfl⟩
    exact .other isStored unwanted noGroup searches

theorem searches_group_iff (isStored : chain.stored[id]? = some token)
    (unwanted : wanted token.kind = false) (isGroup : token.kind = .group .round) :
    chain.Searches wanted (id :: ids) looked answer ↔
      ∃ within result, chain.Searches wanted (token.nested.map Token.id).reverse within result ∧
        ((∃ found, result = some found ∧ looked = id :: within ∧ answer = some found) ∨
          result = none ∧ ∃ further, chain.Searches wanted ids further answer ∧
            looked = id :: (within ++ further)) := by
  constructor
  · intro searches
    cases searches with
    | here isOther isWanted =>
      rw [eq_of_stored isStored isOther, unwanted] at isWanted
      cases isWanted
    | inside isOther _ _ within =>
      obtain rfl := eq_of_stored isStored isOther
      exact ⟨_, _, within, .inl ⟨_, rfl, rfl, rfl⟩⟩
    | past isOther _ _ within further =>
      obtain rfl := eq_of_stored isStored isOther
      exact ⟨_, _, within, .inr ⟨rfl, _, further, rfl⟩⟩
    | other isOther _ noGroup =>
      rw [eq_of_stored isStored isOther] at noGroup
      exact absurd isGroup noGroup
  · rintro ⟨within, result, inside, ⟨found, rfl, rfl, rfl⟩ | ⟨rfl, further, behind, rfl⟩⟩
    · exact .inside isStored unwanted isGroup inside
    · exact .past isStored unwanted isGroup inside behind

/-- There is one run only, and it comes across the spread tokens from the back.  The
induction is on a bound of the identities: what is nested in a group has smaller
ones than the group. -/
theorem searches_iff_of_lt (nests : chain.NestsBefore) (bound : Nat) (tokens : List Token)
    (areStored : ∀ token ∈ tokens, chain.Stores token ∧ token.id < bound) :
    chain.Searches wanted (tokens.map Token.id).reverse looked answer ↔
      Token.Sought wanted tokens looked answer := by
  induction bound generalizing tokens looked answer with
  | zero =>
    obtain rfl : tokens = [] := List.eq_nil_iff_forall_not_mem.2 fun token member =>
      Nat.not_lt_zero _ (areStored token member).2
    exact searches_nil_iff
  | succ bound inner =>
    induction tokens using List.reverseRecOn generalizing looked answer with
    | nil => exact searches_nil_iff
    | append_singleton front token ih =>
      obtain ⟨isStored, bounded⟩ := areStored token (by simp)
      have before (further : List Nat) (result : Option Nat) := @ih further result
        fun other member => areStored other (List.mem_append_left _ member)
      have inside (within : List Nat) (result : Option Nat) := @inner within result token.nested
        fun child isChild =>
          have ⟨childStored, smaller⟩ := nests token.id token isStored child isChild
          ⟨childStored, by omega⟩
      rw [List.map_append, List.reverse_append, List.map_singleton, List.reverse_singleton,
        List.singleton_append]
      by_cases isWanted : wanted token.kind = true
      · rw [searches_wanted_iff isStored isWanted, Token.sought_wanted_iff front isWanted]
      have unwanted : wanted token.kind = false := Bool.eq_false_of_not_eq_true isWanted
      by_cases isGroup : token.kind = .group .round
      · rw [searches_group_iff isStored unwanted isGroup,
          Token.sought_group_iff front unwanted isGroup]
        simp only [inside, before]
      · rw [searches_other_iff isStored unwanted isGroup,
          Token.sought_other_iff front unwanted isGroup]
        simp only [before]

theorem searches_iff (nests : chain.NestsBefore) {tokens : List Token}
    (areStored : ∀ token ∈ tokens, chain.Stores token) :
    chain.Searches wanted (tokens.map Token.id).reverse looked answer ↔
      Token.Sought wanted tokens looked answer :=
  searches_iff_of_lt nests chain.stored.size tokens fun token member =>
    ⟨areStored token member, (areStored token member).lt_size⟩

end Runs

end Chain

/-! ## The order of the text -/

namespace Token

theorem expand_nested_sublist {group : Token} {bracket : Bracket} {tokens : List Token}
    (isGroup : group.kind = .group bracket) (isMet : group ∈ met tokens) :
    (expand group.nested).Sublist (expand tokens) := by
  induction tokens using nested_induction with
  | nil => cases isMet
  | cons first rest inside ih =>
    rw [expand_cons]
    rcases mem_met_cons_iff.1 isMet with rfl | ⟨⟨_, isFirst⟩, within⟩ | later
    · rw [expand_group isGroup]
      exact List.sublist_append_left _ _
    · rw [expand_group isFirst]
      exact (inside within).trans (List.sublist_append_left _ _)
    · exact (ih later).trans (List.sublist_append_right _ _)

/-- Where the identifiers start at increasing offsets, the last one is found. -/
theorem lastNested?_isIdentifier_iff {tokens : List Token}
    (increase : (expand tokens).Pairwise fun first second =>
      first.span.start < second.span.start) {found : Token} :
    lastNested? TokenKind.isIdentifier tokens = some found ↔
      found.kind = .identifier ∧ found.InParentheses tokens ∧
        ∀ other : Token, other.kind = .identifier → other.InParentheses tokens → other ≠ found →
          other.span.start < found.span.start := by
  have furthest {last : Token} (isLast : lastNested? TokenKind.isIdentifier tokens = some last) :
      last.kind = .identifier ∧ last.InParentheses tokens ∧
        ∀ other : Token, other.kind = .identifier → other.InParentheses tokens → other ≠ last →
          other.span.start < last.span.start := by
    obtain ⟨front, back, split, isName, unwanted⟩ := lastNested?_eq_some_iff.1 isLast
    have names := increase.sublist (filter_spread_sublist tokens)
    rw [split, List.filter_append, List.filter_cons, if_pos isName] at names
    refine ⟨of_decide_eq_true isName, mem_spread_iff.1 (by simp [split]), ?_⟩
    intro other isOther within isDifferent
    have member := mem_spread_iff.2 within
    rw [split, List.mem_append, List.mem_cons] at member
    rcases member with before | same | behind
    · have isNameBefore : other ∈ front.filter fun token => token.kind.isIdentifier :=
        List.mem_filter.2 ⟨before, decide_eq_true isOther⟩
      exact (List.pairwise_append.1 names).2.2 other isNameBefore last List.mem_cons_self
    · exact absurd same isDifferent
    · have noName := unwanted other behind
      rw [isOther] at noName
      cases noName
  constructor
  · exact furthest
  · rintro ⟨isName, within, isFurthest⟩
    cases isLast : lastNested? TokenKind.isIdentifier tokens with
    | none =>
      have noName := lastNested?_eq_none_iff.1 isLast found (mem_spread_iff.2 within)
      rw [isName] at noName
      cases noName
    | some last =>
      obtain ⟨isLastName, lastWithin, lastIsFurthest⟩ := furthest isLast
      by_contra isDifferent
      have different : found ≠ last := fun same => isDifferent (same ▸ rfl)
      have behind := lastIsFurthest found isName within different
      have before := isFurthest last isLastName lastWithin different.symm
      omega

end Token

namespace Chain

variable {chain : Chain}

theorem nestsBefore_of_tokenize {source : String} {language : Language}
    (tokenized : tokenize source language = .ok chain) : chain.NestsBefore :=
  fun _ _ isStored => ((sound_of_tokenize tokenized).nested_of_getElem? isStored).2

def Lists (chain : Chain) (tokens : List Token) : Prop :=
  tokens = chain.live ∨
    ∃ group ∈ chain.stored.toList, (∃ bracket, group.kind = .group bracket) ∧ tokens = group.nested

theorem Lists.stored {source : String} {language : Language} {tokens : List Token}
    (tokenized : tokenize source language = .ok chain) (lists : chain.Lists tokens) :
    ∀ token ∈ tokens, chain.Stores token := by
  have sound := sound_of_tokenize tokenized
  rcases lists with rfl | ⟨group, isStored, _, rfl⟩
  · exact sound.live
  · exact fun token isNested => (sound.nested group isStored token isNested).1

theorem Lists.increase {source : String} {language : Language} {tokens : List Token}
    (tokenized : tokenize source language = .ok chain) (lists : chain.Lists tokens) :
    (Token.expand tokens).Pairwise fun first second => first.span.start < second.span.start := by
  obtain ⟨lexemes, read, isChain⟩ := exists_lexemes_of_tokenize tokenized
  obtain ⟨same, tokenizedSame, leaves⟩ := leaves_of_lex language read
  obtain rfl : same = chain := Except.ok.inj (tokenizedSame.symm.trans tokenized)
  have increase := leaves_increase read leaves
  rcases lists with rfl | ⟨group, isStored, ⟨bracket, isGroup⟩, rfl⟩
  · exact increase
  · have met := met_ofLexemes language (.ofText source.toList) lexemes
    rw [← isChain] at met
    exact increase.sublist (Token.expand_nested_sublist isGroup (met.mem_iff.2 isStored))

/-- Where what is nested in a token is stored before it, the search through the
identities of stored tokens ends, with one answer, which is the one of the library.
It comes across the spread tokens from the back, and so never into other groups
than parentheses, up to the last one wanted, which it finds, and none is found only
if none is wanted.  In the chain of a text, the identifier found among the live
tokens or among those of a group is the one that starts furthest behind of all
those that are reached through parentheses. -/
theorem search_last (chain : Chain) :
    (chain.NestsBefore → ∀ (wanted : TokenKind → Bool) (tokens : List Token),
      (∀ token ∈ tokens, chain.Stores token) →
        (∀ looked answer, chain.Searches wanted (tokens.map Token.id).reverse looked answer ↔
          looked = (Token.upTo wanted (Token.spread tokens).reverse).map Token.id ∧
            answer = (Token.lastNested? wanted tokens).map Token.id) ∧
        (∀ found, Token.lastNested? wanted tokens = some found ↔
          ∃ front back, Token.spread tokens = front ++ found :: back ∧
            wanted found.kind = true ∧ ∀ token ∈ back, wanted token.kind = false) ∧
        (Token.lastNested? wanted tokens = none ↔
          ∀ token ∈ Token.spread tokens, wanted token.kind = false) ∧
        ∀ token : Token, token ∈ Token.spread tokens ↔ token.InParentheses tokens) ∧
      ∀ (source : String) (language : Language), tokenize source language = .ok chain →
        chain.NestsBefore ∧
          ∀ tokens, chain.Lists tokens →
            (∀ token ∈ tokens, chain.Stores token) ∧
            ∀ found, Token.lastNested? TokenKind.isIdentifier tokens = some found ↔
              found.kind = .identifier ∧ found.InParentheses tokens ∧
                ∀ other : Token, other.kind = .identifier → other.InParentheses tokens →
                  other ≠ found → other.span.start < found.span.start := by
  refine ⟨fun nests wanted tokens areStored => ?_, fun source language tokenized => ?_⟩
  · exact ⟨fun _ _ => searches_iff nests areStored, fun _ => Token.lastNested?_eq_some_iff,
      Token.lastNested?_eq_none_iff, fun _ => Token.mem_spread_iff⟩
  · exact ⟨nestsBefore_of_tokenize tokenized, fun tokens lists => ⟨lists.stored tokenized,
      fun _ => Token.lastNested?_isIdentifier_iff (lists.increase tokenized)⟩⟩

def groupedText : String := "g(a, (b[c]), (1));"

def groupedLexemes : List Lexeme :=
  [⟨.word, "g", .ofLength 0 1⟩, ⟨.opening .round, "(", .ofLength 1 1⟩,
    ⟨.word, "a", .ofLength 2 1⟩, ⟨.punct .comma, ",", .ofLength 3 1⟩,
    ⟨.opening .round, "(", .ofLength 5 1⟩, ⟨.word, "b", .ofLength 6 1⟩,
    ⟨.opening .square, "[", .ofLength 7 1⟩, ⟨.word, "c", .ofLength 8 1⟩,
    ⟨.closing .square, "]", .ofLength 9 1⟩, ⟨.closing .round, ")", .ofLength 10 1⟩,
    ⟨.punct .comma, ",", .ofLength 11 1⟩, ⟨.opening .round, "(", .ofLength 13 1⟩,
    ⟨.number, "1", .ofLength 14 1⟩, ⟨.closing .round, ")", .ofLength 15 1⟩,
    ⟨.closing .round, ")", .ofLength 16 1⟩, ⟨.punct .semicolon, ";", .ofLength 17 1⟩]

def groupedChain : Chain := .ofLexemes .cpp (.ofText groupedText.toList) groupedLexemes

theorem tokenize_groupedText : tokenize groupedText .cpp = .ok groupedChain :=
  tokenize_of_lex (by cbv)

theorem search_last_groupedChain :
    tokenize groupedText .cpp = .ok groupedChain ∧ groupedChain.NestsBefore ∧
      ∃ group, groupedChain.stored[18]? = some group ∧ groupedChain.Lists group.nested ∧
        (∀ token ∈ group.nested, groupedChain.Stores token) ∧
        groupedChain.Searches TokenKind.isIdentifier [17, 16, 12, 11, 3, 2, 1]
          [17, 16, 15, 14, 13, 12, 11, 10, 9, 5] (some 5) ∧
        ∃ name : Token, name.text = "b" ∧ name.InParentheses group.nested ∧
          ∀ other : Token, other.kind = .identifier → other.InParentheses group.nested →
            other ≠ name → other.span.start < name.span.start := by
  obtain ⟨byIdentities, ofText⟩ := search_last groupedChain
  obtain ⟨nests, lists⟩ := ofText groupedText .cpp tokenize_groupedText
  have contents : groupedChain.stored[18]?.map (fun group =>
      (group.kind, group.nested.map Token.id,
        (Token.upTo TokenKind.isIdentifier (Token.spread group.nested).reverse).map Token.id,
        (Token.lastNested? TokenKind.isIdentifier group.nested).map fun name =>
          (name.id, name.text))) =
      some (.group .round, [1, 2, 3, 11, 12, 16, 17], [17, 16, 15, 14, 13, 12, 11, 10, 9, 5],
        some (5, "b")) := by
    decide +kernel
  obtain ⟨group, isGroup, contents⟩ := Option.map_eq_some_iff.1 contents
  simp only [Prod.mk.injEq, Option.map_eq_some_iff] at contents
  obtain ⟨kind, nested, looked, name, isName, isFifth, isText⟩ := contents
  have isListed : groupedChain.Lists group.nested :=
    .inr ⟨group, Array.mem_toList_iff.2 (Array.mem_of_getElem? isGroup), ⟨.round, kind⟩, rfl⟩
  obtain ⟨areStored, furthest⟩ := lists group.nested isListed
  obtain ⟨searches, _⟩ := byIdentities nests TokenKind.isIdentifier group.nested areStored
  have run := (searches [17, 16, 15, 14, 13, 12, 11, 10, 9, 5] (some 5)).2
    ⟨looked.symm, by rw [isName, Option.map_some, isFifth]⟩
  rw [nested] at run
  obtain ⟨_, within, isFurthest⟩ := (furthest name).1 isName
  exact ⟨tokenize_groupedText, nests, group, isGroup, isListed, areStored, run, name, isText,
    within, isFurthest⟩

end Chain

end DeclScan
