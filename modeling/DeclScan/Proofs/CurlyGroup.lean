import Mathlib
import DeclScan.Proofs.Grouping

/-!
# Where curly groups stand

A curly bracket opens a region only inside another one, so a curly group stands
inside a group, or behind a round or square bracket that was open then and is
never closed.  Folding keeps `Folding.CurlyWithin`: the outermost open region is
never a curly one, and outside of all regions there are no curly groups.  The
main statement is `tokenize_curly_groups`.
-/

set_option autoImplicit false

namespace DeclScan

def Token.OpensAnywhere (token : Token) : Prop :=
  token.kind = .opening .round ∨ token.kind = .opening .square

namespace Folding

variable {folding : Folding} {token : Token}

theorem outside_add (folding : Folding) (token : Token) :
    (folding.add token).outside =
      match folding.regions with
      | [] => folding.outside.push token
      | _ :: _ => folding.outside := by
  unfold add
  cases folding.regions <;> rfl

/-- The opening bracket of the outermost region comes first. -/
theorem flattenRegions_outermost (inner : List Token) {regions : List OpenRegion}
    {region : OpenRegion} (outermost : regions.getLast? = some region) :
    ∃ rest, flattenRegions inner regions = region.opener :: rest := by
  induction regions generalizing inner with
  | nil => cases outermost
  | cons innermost regions ih =>
    cases regions with
    | nil =>
      obtain rfl : innermost = region := by simpa using outermost
      exact ⟨_, rfl⟩
    | cons next others =>
      rw [flattenRegions]
      exact ih _ (by simpa using outermost)

/-- Outside of all regions no curly group stands, and the outermost region is
not a curly one. -/
structure CurlyWithin (folding : Folding) : Prop where
  outside : ∀ token ∈ folding.outside.toList, token.kind ≠ .group .curly
  outermost : ∀ region ∈ folding.regions.getLast?,
    region.bracket ≠ .curly ∧ region.opener.OpensAnywhere

theorem curlyWithin_start : start.CurlyWithin := ⟨nofun, nofun⟩

theorem CurlyWithin.add (within : folding.CurlyWithin)
    (noCurly : folding.regions = [] → token.kind ≠ .group .curly) :
    (folding.add token).CurlyWithin := by
  obtain ⟨outside, outermost⟩ := within
  cases isOpen : folding.regions with
  | nil =>
    refine ⟨?_, ?_⟩
    · rw [outside_add, isOpen]
      simp only [Array.toList_push]
      intro other member
      rcases List.mem_append.1 member with before | last
      · exact outside other before
      · rw [List.mem_singleton.1 last]
        exact noCurly isOpen
    · rw [regions_add, isOpen]
      exact nofun
  | cons innermost others =>
    refine ⟨?_, ?_⟩
    · rw [outside_add, isOpen]
      exact outside
    · rw [regions_add, isOpen]
      rw [isOpen] at outermost
      cases others with
      | nil => simpa using outermost innermost rfl
      | cons next others => simpa using outermost

theorem CurlyWithin.read (within : folding.CurlyWithin) (noCurly : token.kind ≠ .group .curly) :
    (folding.read token).CurlyWithin := by
  rcases read_cases_of_regions folding token with
    ⟨bracket, isOpening, opened, read⟩ | ⟨region, outer, isOpen, _, read⟩ | ⟨_, _, read⟩
  · rw [read]
    refine ⟨within.outside, ?_⟩
    intro region isOutermost
    cases isOpen : folding.regions with
    | nil =>
      -- a curly bracket opens nothing here
      obtain rfl : ⟨bracket, token, #[]⟩ = region := by simpa [isOpen] using isOutermost
      cases bracket with
      | round => exact ⟨nofun, .inl isOpening⟩
      | square => exact ⟨nofun, .inr isOpening⟩
      | curly => simp [opens, isOpen] at opened
      | angle => cases opened
    | cons innermost others =>
      rw [isOpen, List.getLast?_cons_cons] at isOutermost
      exact within.outermost region (by rw [isOpen]; exact isOutermost)
  · rw [read, close]
    have outermost := within.outermost
    rw [isOpen] at outermost
    refine CurlyWithin.add ⟨within.outside, ?_⟩ ?_
    · intro other isOutermost
      cases outer with
      | nil => cases isOutermost
      | cons next others =>
        rw [List.getLast?_cons_cons] at outermost
        exact outermost other isOutermost
    · intro noOther isCurly
      dsimp only at noOther
      subst noOther
      injection isCurly with isCurly
      exact (outermost region rfl).1 isCurly
  · rw [read]
    exact within.add fun _ => noCurly

theorem CurlyWithin.foldl (within : folding.CurlyWithin) (language : Language) (lines : LineIndex)
    (lexemes : List Lexeme) :
    (lexemes.foldl (readLexeme language lines) folding).CurlyWithin := by
  induction lexemes generalizing folding with
  | nil => exact within
  | cons lexeme lexemes ih =>
    exact ih (CurlyWithin.read ⟨within.outside, within.outermost⟩
      (TokenKind.ofLexeme_ne_group language lexeme .curly))

theorem CurlyWithin.opener_of_flatten (within : folding.CurlyWithin) {front back : List Token}
    {group : Token} (isFlat : folding.flatten = front ++ group :: back)
    (isCurly : group.kind = .group .curly) : ∃ opener ∈ front, opener.OpensAnywhere := by
  rw [flatten] at isFlat
  have notOutside : group ∉ folding.outside.toList := fun member =>
    within.outside group member isCurly
  obtain ⟨middle, rfl, regionsFlat⟩ :
      ∃ middle, front = folding.outside.toList ++ middle ∧
        flattenRegions [] folding.regions = middle ++ group :: back := by
    rcases List.append_eq_append_iff.1 isFlat with ⟨middle, isFront, rest⟩ | ⟨middle, isOutside, rest⟩
    · exact ⟨middle, isFront, rest⟩
    · cases middle with
      | nil => exact ⟨[], by simpa using isOutside.symm, by simpa using rest.symm⟩
      | cons first middle =>
        obtain ⟨rfl, _⟩ := List.cons.inj rest
        exact absurd (by rw [isOutside]; simp) notOutside
  cases isOutermost : folding.regions.getLast? with
  | none =>
    rw [List.getLast?_eq_none_iff] at isOutermost
    rw [isOutermost, flattenRegions] at regionsFlat
    simp at regionsFlat
  | some outermost =>
    have opens := (within.outermost outermost isOutermost).2
    obtain ⟨rest, startsWith⟩ := flattenRegions_outermost [] isOutermost
    rw [startsWith] at regionsFlat
    cases middle with
    | nil =>
      obtain ⟨rfl, _⟩ := List.cons.inj regionsFlat
      rcases opens with isRound | isSquare
      · rw [isCurly] at isRound
        cases isRound
      · rw [isCurly] at isSquare
        cases isSquare
    | cons first middle =>
      obtain ⟨rfl, _⟩ := List.cons.inj regionsFlat
      exact ⟨outermost.opener, by simp, opens⟩

end Folding

def Chain.HoldsNested (chain : Chain) (token : Token) : Prop :=
  ∃ outer ∈ chain.stored.toList,
    (∃ bracket, outer.kind = .group bracket) ∧ token ∈ outer.nested

theorem Chain.live_or_nested {source : String} {language : Language} {chain : Chain}
    (tokenized : tokenize source language = .ok chain) :
    ∀ token ∈ chain.stored.toList, token ∈ chain.live ∨ chain.HoldsNested token := by
  obtain ⟨lexemes, _, rfl⟩ := exists_lexemes_of_tokenize tokenized
  have met := Chain.met_ofLexemes language (.ofText source.toList) lexemes
  intro token isStored
  refine (Token.nested_of_mem_met (met.mem_iff.2 isStored)).imp_right ?_
  rintro ⟨outer, isMet, isGroup, isNested⟩
  exact ⟨outer, met.mem_iff.1 isMet, isGroup, isNested⟩

/-- A curly group that is live stands behind a round or square bracket that is
never closed.  All other curly groups are nested in groups.  So if every round
and square bracket is closed, no curly group is live and each is nested in a
group. -/
theorem tokenize_curly_groups {source : String} {language : Language} {chain : Chain}
    (tokenized : tokenize source language = .ok chain) :
    (∀ front group back, chain.live = front ++ group :: back → group.kind = .group .curly →
      ∃ opener ∈ front, opener.OpensAnywhere) ∧
      (∀ group ∈ chain.stored.toList, group.kind = .group .curly → group ∉ chain.live →
        chain.HoldsNested group) ∧
      ((∀ token ∈ chain.live, ¬ token.OpensAnywhere) →
        ∀ group ∈ chain.stored.toList, group.kind = .group .curly →
          group ∉ chain.live ∧ chain.HoldsNested group) := by
  have behind : ∀ front group back, chain.live = front ++ group :: back →
      group.kind = .group .curly → ∃ opener ∈ front, opener.OpensAnywhere := by
    obtain ⟨lexemes, _, rfl⟩ := exists_lexemes_of_tokenize tokenized
    intro front group back isLive isCurly
    exact (Folding.curlyWithin_start.foldl ..).opener_of_flatten isLive isCurly
  have nested : ∀ group ∈ chain.stored.toList, group ∉ chain.live → chain.HoldsNested group :=
    fun group isStored notLive =>
      (Chain.live_or_nested tokenized group isStored).resolve_left notLive
  refine ⟨behind, fun group isStored _ => nested group isStored, ?_⟩
  intro allClosed group isStored isCurly
  have notLive : group ∉ chain.live := by
    intro isLive
    obtain ⟨front, back, whole⟩ := List.append_of_mem isLive
    obtain ⟨opener, isBefore, opens⟩ := behind front group back whole isCurly
    exact allClosed opener (by rw [whole]; simp [isBefore]) opens
  exact ⟨notLive, nested group isStored notLive⟩

def unclosedText : String := "f(\x7b1\x7d;"

def unclosedLexemes : List Lexeme :=
  [⟨.word, "f", .ofLength 0 1⟩, ⟨.opening .round, "(", .ofLength 1 1⟩,
    ⟨.opening .curly, "\x7b", .ofLength 2 1⟩, ⟨.number, "1", .ofLength 3 1⟩,
    ⟨.closing .curly, "\x7d", .ofLength 4 1⟩, ⟨.punct .semicolon, ";", .ofLength 5 1⟩]

def unclosedChain : Chain := .ofLexemes .cpp (.ofText unclosedText.toList) unclosedLexemes

theorem tokenize_unclosedText : tokenize unclosedText .cpp = .ok unclosedChain :=
  tokenize_of_lex (by cbv)

theorem kinds_unclosedChain :
    unclosedChain.live.map Token.kind =
      [.identifier, .opening .round, .group .curly, .punct .semicolon] := by
  decide +kernel

theorem tokenize_curly_groups_unclosedText :
    tokenize unclosedText .cpp = .ok unclosedChain ∧
      ∃ front group back, unclosedChain.live = front ++ group :: back ∧
        group.kind = .group .curly ∧ ∃ opener ∈ front, opener.OpensAnywhere := by
  obtain ⟨behind, _⟩ := tokenize_curly_groups tokenize_unclosedText
  have kinds := kinds_unclosedChain
  obtain ⟨first, rest, live, _, kinds⟩ := List.map_eq_cons_iff.1 kinds
  obtain ⟨second, rest, rfl, _, kinds⟩ := List.map_eq_cons_iff.1 kinds
  obtain ⟨third, rest, rfl, isCurly, _⟩ := List.map_eq_cons_iff.1 kinds
  exact ⟨tokenize_unclosedText, [first, second], third, rest, live, isCurly,
    behind [first, second] third rest live isCurly⟩

/-- Without a bracket around it that is closed, a curly group is live and nested
in no group. -/
theorem curly_group_live :
    ∃ chain, tokenize unclosedText .cpp = .ok chain ∧
      (∃ group ∈ chain.live, group.kind = .group .curly) ∧
      ∃ group ∈ chain.stored.toList, group.kind = .group .curly ∧ ¬ chain.HoldsNested group := by
  have isLive : TokenKind.group .curly ∈ unclosedChain.live.map Token.kind := by
    simp [kinds_unclosedChain]
  have isStored : (TokenKind.group .curly, 5) ∈
      unclosedChain.stored.toList.map fun token => (token.kind, token.id) := by
    decide +kernel
  have apart : ∀ outer ∈ unclosedChain.stored.toList, 5 ∉ outer.nested.map Token.id := by
    decide +kernel
  obtain ⟨group, stored, isGroup⟩ := List.mem_map.1 isStored
  obtain ⟨isCurly, isFifth⟩ := Prod.mk.inj isGroup
  refine ⟨unclosedChain, tokenize_unclosedText, List.mem_map.1 isLive, group, stored, isCurly, ?_⟩
  rintro ⟨outer, outerStored, _, isNested⟩
  exact apart outer outerStored (isFifth ▸ List.mem_map_of_mem isNested)

end DeclScan
