import Mathlib
import DeclScan.Proofs.Expansion
import DeclScan.Proofs.Offers

/-!
# Identities of tokens

A chain is changed by storing tokens, by taking live ones out, by folding angle
runs and by scans.  None of these touches what is stored already, and only a
token stored just now becomes live.  So an identity names one token for ever,
and a token that was taken out stays out.  `Chain.Sound` is what every change
keeps, and `Chain.reached_sound` the main statement.
-/

set_option autoImplicit false

namespace DeclScan

namespace Chain

/-- The chain holds this very token, with all that is nested in it, under its
identity. -/
def Stores (chain : Chain) (token : Token) : Prop := chain.stored[token.id]? = some token

/-- Nested tokens are stored before the token that they are nested in, and no
two places of the live list hold the same token. -/
structure Sound (chain : Chain) : Prop where
  numbered : chain.Numbered
  nested : ∀ token ∈ chain.stored.toList, ∀ child ∈ token.nested,
    chain.Stores child ∧ child.id < token.id
  live : ∀ token ∈ chain.live, chain.Stores token
  distinct : (chain.live.map Token.id).Nodup

/-- All that was stored is still stored, and what is live was live before or is
stored since. -/
structure Precedes (chain later : Chain) : Prop where
  stored : chain.stored.toList <+: later.stored.toList
  live : ∀ token ∈ later.live, token ∈ chain.live ∨ chain.stored.size ≤ token.id

/-- What may be done to a chain.  A group may hold any tokens that are stored
already, live or not. -/
inductive Change : Chain → Chain → Prop where
  | store {chain : Chain} {nested : List Token} (kind : TokenKind) (text : String) (span : Span)
      (position : Position) : (∀ child ∈ nested, chain.Stores child) →
      Change chain (chain.store kind text span position nested).2
  | push {chain : Chain} {nested : List Token} (kind : TokenKind) (text : String) (span : Span)
      (position : Position) : (∀ child ∈ nested, chain.Stores child) →
      Change chain (chain.push kind text span position nested).2
  | take {chain next : Chain} {place : Nat} {token : Token} :
      chain.take? place = some (token, next) → Change chain next
  | foldAngleRun (chain : Chain) (place : Nat) :
      Change chain ((chain.foldAngleRun? place).getD chain)
  | scan {σ : Type} (sink : Sink σ) (file : SourceFile) (storage : Storage) (chain : Chain)
      (scopes : ScopeStack) (state : σ) :
      Change chain (chain.scan sink file storage scopes state).chain

abbrev Run : Chain → Chain → Prop := Relation.ReflTransGen Change

/-- The chains that runs lead to, from an empty chain or from that of a text. -/
inductive Reached : Chain → Prop where
  | empty {chain : Chain} : Run .empty chain → Reached chain
  | tokenized {source : String} {language : Language} {first chain : Chain} :
      tokenize source language = .ok first → Run first chain → Reached chain

def Nests (chain : Chain) (inner outer : Nat) : Prop :=
  ∃ token, chain.stored[outer]? = some token ∧ inner ∈ token.nested.map Token.id

variable {chain later : Chain} {token : Token}

theorem Numbered.id_eq (numbered : chain.Numbered) {id : Nat}
    (found : chain.stored[id]? = some token) : token.id = id := by
  have ids := congrArg (·[id]?) numbered
  obtain ⟨short, _⟩ := Array.getElem?_eq_some_iff.1 found
  rw [← Array.getElem?_toList] at found
  simpa [found, List.getElem?_range short] using ids

theorem Stores.lt_size (stores : chain.Stores token) : token.id < chain.stored.size :=
  (Array.getElem?_eq_some_iff.1 stores).1

theorem Stores.mem (stores : chain.Stores token) : token ∈ chain.stored.toList := by
  rw [Array.mem_toList_iff]
  exact Array.mem_of_getElem? stores

theorem placeOf?_eq_some_iff (distinct : (chain.live.map Token.id).Nodup) {id place : Nat} :
    chain.placeOf? id = some place ↔ (chain.get? place).map Token.id = some id := by
  rw [placeOf?, get?, ← List.getElem?_map]
  constructor
  · intro found
    obtain ⟨short, isId, _⟩ := List.findIdx?_eq_some_iff_getElem.1 found
    rw [List.getElem?_map, List.getElem?_eq_getElem short]
    simpa using isId
  · intro found
    obtain ⟨short, isId⟩ := List.getElem?_eq_some_iff.1 found
    rw [List.length_map] at short
    rw [List.getElem_map] at isId
    refine List.findIdx?_eq_some_iff_getElem.2 ⟨short, by simpa using isId, ?_⟩
    intro earlier isEarlier same
    simp only [decide_eq_true_eq] at same
    have before : earlier < chain.live.length := Nat.lt_trans isEarlier short
    have alsoFound : (chain.live.map Token.id)[earlier]? = some id := by
      rw [List.getElem?_map, List.getElem?_eq_getElem before, Option.map_some, same]
    have sameIndex := (List.getElem?_inj (by simpa using before) distinct).1
      (alsoFound.trans found.symm)
    omega

/-! ## Soundness -/

theorem sound_empty : Sound .empty where
  numbered := rfl
  nested := nofun
  live := nofun
  distinct := .nil

/-- Soundness does not depend on tokens that are no longer live. -/
theorem Sound.sublist (sound : chain.Sound) {live : List Token} (fewer : live.Sublist chain.live) :
    Sound { chain with live := live } where
  numbered := sound.numbered
  nested := sound.nested
  live token member := sound.live token (fewer.subset member)
  distinct := sound.distinct.sublist (fewer.map Token.id)

section Store

variable {nested : List Token} (kind : TokenKind) (text : String) (span : Span)
  (position : Position)

theorem Stores.store (stores : chain.Stores token) :
    (chain.store kind text span position nested).2.Stores token := by
  rw [Stores, stored_store, if_neg (Nat.ne_of_lt stores.lt_size)]
  exact stores

theorem stores_new :
    (chain.store kind text span position nested).2.Stores
      (chain.store kind text span position nested).1 := by
  rw [Stores, stored_store]
  exact if_pos rfl

theorem Sound.store (sound : chain.Sound) (areStored : ∀ child ∈ nested, chain.Stores child) :
    (chain.store kind text span position nested).2.Sound where
  numbered := sound.numbered.store ..
  nested := by
    intro token member child isChild
    rw [Chain.store, Array.toList_push] at member
    rcases List.mem_append.1 member with old | new
    · obtain ⟨stores, smaller⟩ := sound.nested token old child isChild
      exact ⟨stores.store .., smaller⟩
    · obtain rfl := List.mem_singleton.1 new
      have stores := areStored child isChild
      exact ⟨stores.store .., stores.lt_size⟩
  live token member := (sound.live token member).store ..
  distinct := sound.distinct

theorem Sound.replace (sound : chain.Sound) (areStored : ∀ child ∈ nested, chain.Stores child)
    {front back : List Token} (fewer : (front ++ back).Sublist chain.live) :
    Sound { (chain.store kind text span position nested).2 with
      live := front ++ (chain.store kind text span position nested).1 :: back } := by
  obtain ⟨numbered, nestedSound, live, distinct⟩ :=
    (sound.store kind text span position areStored).sublist fewer
  refine ⟨numbered, nestedSound, ?_, ?_⟩
  · intro token member
    rcases List.mem_cons.1 (List.perm_middle.mem_iff.1 member) with rfl | old
    · exact stores_new ..
    · exact live token old
  · refine (List.perm_middle.map Token.id).nodup_iff.2 (List.nodup_cons.2 ⟨?_, distinct⟩)
    intro old
    obtain ⟨token, member, sameId⟩ := List.mem_map.1 old
    have smaller := (sound.live token (fewer.subset member)).lt_size
    rw [sameId] at smaller
    exact Nat.lt_irrefl _ smaller

end Store

theorem Sound.group (sound : chain.Sound) (bracket : Bracket) {front rest back : List Token}
    {first : Token} (region : chain.live = front ++ (first :: rest) ++ back) :
    Sound { (chain.storeGroup bracket first rest).2 with
      live := front ++ (chain.storeGroup bracket first rest).1 :: back } := by
  refine sound.replace _ _ _ _ ?_ ?_
  · intro child isChild
    apply sound.live
    rw [region]
    exact List.mem_append_left _ (List.mem_append_right _ isChild)
  · rw [region]
    exact (List.sublist_append_left _ _).append_right _

end Chain

namespace Folding

theorem sound_read {folding : Folding} {token : Token}
    (sound : Chain.Sound { folding.chain with live := folding.flatten ++ [token] }) :
    (folding.read token).finish.Sound := by
  rcases read_cases folding token with
    ⟨unchanged, added⟩ | ⟨bracket, front, opener, contents, opened, stored, closed⟩
  · rw [finish, unchanged, added]
    exact sound
  · rw [finish, stored, closed]
    refine sound.group bracket ?_
    rw [opened]
    simp

theorem sound_readLexeme {folding : Folding} (sound : folding.finish.Sound)
    (language : Language) (lines : LineIndex) (lexeme : Lexeme) :
    (folding.readLexeme language lines lexeme).finish.Sound := by
  apply sound_read
  have all : (folding.flatten ++ []).Sublist folding.finish.live := by
    rw [List.append_nil]
    exact .refl _
  have noneNested : ∀ child ∈ ([] : List Token), folding.finish.Stores child := nofun
  exact sound.replace (.ofLexeme language lexeme) lexeme.text lexeme.span
    (lines.position lexeme.span.start) noneNested all

theorem sound_foldl {folding : Folding} (sound : folding.finish.Sound) (language : Language)
    (lines : LineIndex) (lexemes : List Lexeme) :
    (lexemes.foldl (readLexeme language lines) folding).finish.Sound := by
  induction lexemes generalizing folding with
  | nil => exact sound
  | cons lexeme lexemes ih => exact ih (sound_readLexeme sound language lines lexeme)

end Folding

/-! ## Changes -/

namespace Chain

variable {chain next later : Chain} {token : Token}

theorem sound_of_tokenize {source : String} {language : Language}
    (tokenized : tokenize source language = .ok chain) : chain.Sound := by
  unfold tokenize at tokenized
  split at tokenized
  · obtain rfl := Except.ok.inj tokenized
    have nothing : Folding.start.finish.Sound := sound_empty
    exact Folding.sound_foldl nothing ..
  · cases tokenized

theorem live_scan_sublist {σ : Type} (sink : Sink σ) (file : SourceFile) (storage : Storage)
    (chain : Chain) (scopes : ScopeStack) (state : σ) :
    (chain.scan sink file storage scopes state).chain.live.Sublist chain.live := by
  obtain ⟨stretches, rest, whole, kept, _⟩ :=
    exists_stretches sink file storage chain scopes state
  rw [whole, kept]
  exact (Stretch.flatMap_kept_sublist stretches).append_right rest

theorem take?_eq_some_iff {place : Nat} :
    chain.take? place = some (token, next) ↔
      chain.live[place]? = some token ∧
        next = { chain with live := chain.live.eraseIdx place } := by
  simp [take?, get?, eq_comm]

theorem foldAngleRun?_eq_some {place : Nat} (folded : chain.foldAngleRun? place = some next) :
    ∃ front first rest back, chain.live = front ++ (first :: rest) ++ back ∧
      next = { (chain.storeGroup .angle first rest).2 with
        live := front ++ (chain.storeGroup .angle first rest).1 :: back } := by
  unfold foldAngleRun? at folded
  split at folded
  · cases folded
  · rename_i first rest isDropped
    split at folded
    · split at folded
      · cases folded
      · rename_i length _
        obtain rfl := Option.some.inj folded
        refine ⟨chain.live.take place, first, rest.take length, rest.drop length, ?_, rfl⟩
        rw [List.append_assoc, List.cons_append, List.take_append_drop, ← isDropped,
          List.take_append_drop]
    · cases folded

theorem Sound.change (sound : chain.Sound) (change : Change chain next) : next.Sound := by
  cases change with
  | store kind text span position areStored => exact sound.store kind text span position areStored
  | push kind text span position areStored =>
    have all : (chain.live ++ []).Sublist chain.live := by
      rw [List.append_nil]
    exact sound.replace kind text span position areStored all
  | take taken =>
    obtain ⟨_, rfl⟩ := take?_eq_some_iff.1 taken
    exact sound.sublist (List.eraseIdx_sublist ..)
  | foldAngleRun _ place =>
    cases folded : chain.foldAngleRun? place with
    | none => exact sound
    | some next =>
      obtain ⟨front, first, rest, back, region, rfl⟩ := foldAngleRun?_eq_some folded
      exact sound.group .angle region
  | scan sink file storage chain scopes state =>
    exact sound.sublist (live_scan_sublist sink file storage chain scopes state)

namespace Precedes

theorem refl (chain : Chain) : chain.Precedes chain where
  stored := List.prefix_rfl
  live _ member := .inl member

theorem trans (first : chain.Precedes next) (second : next.Precedes later) :
    chain.Precedes later where
  stored := first.stored.trans second.stored
  live := by
    intro token member
    rcases second.live token member with before | since
    · exact first.live token before
    · have := first.stored.length_le
      simp only [Array.length_toList] at this
      exact .inr (by omega)

theorem sublist {live : List Token} (fewer : live.Sublist chain.live) :
    chain.Precedes { chain with live := live } where
  stored := List.prefix_rfl
  live _ member := .inl (fewer.subset member)

theorem replace {nested live : List Token} (kind : TokenKind) (text : String) (span : Span)
    (position : Position)
    (fewer : ∀ token ∈ live,
      token ∈ chain.live ∨ token = (chain.store kind text span position nested).1) :
    chain.Precedes { (chain.store kind text span position nested).2 with live := live } where
  stored := by
    simp only [Chain.store, Array.toList_push]
    exact List.prefix_append ..
  live := by
    intro token member
    rcases fewer token member with before | rfl
    · exact .inl before
    · exact .inr (Nat.le_refl _)

theorem change (change : Change chain next) : chain.Precedes next := by
  cases change with
  | store kind text span position areStored =>
    exact replace kind text span position fun _ member => .inl member
  | push kind text span position areStored =>
    refine replace kind text span position fun token member => ?_
    exact (List.mem_append.1 member).imp id List.mem_singleton.1
  | take taken =>
    obtain ⟨_, rfl⟩ := take?_eq_some_iff.1 taken
    exact sublist (List.eraseIdx_sublist ..)
  | foldAngleRun _ place =>
    cases folded : chain.foldAngleRun? place with
    | none => exact refl chain
    | some next =>
      obtain ⟨front, first, rest, back, region, rfl⟩ := foldAngleRun?_eq_some folded
      refine replace _ _ _ _ fun token member => ?_
      rw [region]
      simp only [List.mem_append, List.mem_cons] at member ⊢
      tauto
  | scan sink file storage chain scopes state =>
    exact sublist (live_scan_sublist sink file storage chain scopes state)

theorem run (run : Run chain later) : chain.Precedes later := by
  induction run with
  | refl => exact refl chain
  | tail _ step ih => exact ih.trans (change step)

end Precedes

theorem Sound.run (sound : chain.Sound) (run : Run chain later) : later.Sound := by
  induction run with
  | refl => exact sound
  | tail _ step ih => exact ih.change step

theorem Reached.sound (reached : Reached chain) : chain.Sound := by
  cases reached with
  | empty run => exact sound_empty.run run
  | tokenized tokenized run => exact (sound_of_tokenize tokenized).run run

/-! ## What identities name -/

theorem Sound.nested_of_getElem? (sound : chain.Sound) {id : Nat}
    (found : chain.stored[id]? = some token) :
    token.id = id ∧ ∀ child ∈ token.nested, chain.Stores child ∧ child.id < id := by
  have isId := sound.numbered.id_eq found
  refine ⟨isId, ?_⟩
  rw [← isId] at found ⊢
  exact sound.nested token (Stores.mem found)

/-- Going from a token to one that is nested in it comes to an end. -/
theorem Sound.wellFounded_nests (sound : chain.Sound) : WellFounded chain.Nests := by
  have smaller : Subrelation chain.Nests (· < ·) := by
    intro inner outer nests
    obtain ⟨token, found, isNested⟩ := nests
    obtain ⟨child, isChild, rfl⟩ := List.mem_map.1 isNested
    exact ((sound.nested_of_getElem? found).2 child isChild).2
  exact smaller.wf Nat.lt_wfRel.wf

theorem Precedes.getElem? (precedes : chain.Precedes later) {id : Nat}
    (found : chain.stored[id]? = some token) : later.stored[id]? = some token := by
  obtain ⟨more, isMore⟩ := precedes.stored
  rw [← Array.getElem?_toList] at found ⊢
  obtain ⟨short, _⟩ := List.getElem?_eq_some_iff.1 found
  rw [← isMore, List.getElem?_append_left short]
  exact found

/-- A token that was stored and is not live does not become live again. -/
theorem Precedes.not_live (precedes : chain.Precedes later) {id : Nat}
    (isOld : id < chain.stored.size) (dead : id ∉ chain.live.map Token.id) :
    id ∉ later.live.map Token.id := by
  intro live
  obtain ⟨token, member, rfl⟩ := List.mem_map.1 live
  rcases precedes.live token member with before | since
  · exact dead (List.mem_map_of_mem before)
  · omega

theorem Sound.not_live_of_take? (sound : chain.Sound) {place : Nat}
    (taken : chain.take? place = some (token, next)) :
    next.Stores token ∧ token.id ∉ next.live.map Token.id := by
  obtain ⟨found, rfl⟩ := take?_eq_some_iff.1 taken
  have isLive : token ∈ chain.live := List.mem_of_getElem? found
  refine ⟨sound.live token isLive, ?_⟩
  have split : chain.live = chain.live.take place ++ token :: chain.live.drop (place + 1) := by
    obtain ⟨short, rfl⟩ := List.getElem?_eq_some_iff.1 found
    rw [List.getElem_cons_drop, List.take_append_drop]
  have distinct := sound.distinct
  rw [split, (List.perm_middle.map Token.id).nodup_iff] at distinct
  dsimp only
  rw [List.eraseIdx_eq_take_drop_succ]
  exact (List.nodup_cons.1 distinct).1

/-- However a chain was reached, its live tokens are stored and have distinct
identities, a token is stored behind all that is nested in it, so that nesting
is well-founded, and the place of an identity is where its token is found.
Whatever is done next, an identity names the same token for ever, and a token
that is not live, such as one that is taken out, stays out of the live list. -/
theorem reached_sound (reached : Reached chain) :
    (chain.live.map Token.id).Nodup ∧
      (∀ token ∈ chain.live, chain.stored[token.id]? = some token) ∧
      (∀ (id : Nat) (token : Token), chain.stored[id]? = some token → token.id = id ∧
        ∀ child ∈ token.nested, chain.stored[child.id]? = some child ∧ child.id < id) ∧
      WellFounded chain.Nests ∧
      (∀ id place, chain.placeOf? id = some place ↔
        (chain.get? place).map Token.id = some id) ∧
      (∀ later, Run chain later →
        (∀ (id : Nat) (token : Token), chain.stored[id]? = some token →
          later.stored[id]? = some token) ∧
        ∀ id < chain.stored.size, id ∉ chain.live.map Token.id →
          id ∉ later.live.map Token.id) ∧
      ∀ place token next later, chain.take? place = some (token, next) → Run next later →
        later.stored[token.id]? = some token ∧ token.id ∉ later.live.map Token.id := by
  have sound := reached.sound
  refine ⟨sound.distinct, sound.live, fun _ _ => sound.nested_of_getElem?,
    sound.wellFounded_nests, fun _ _ => placeOf?_eq_some_iff sound.distinct, ?_, ?_⟩
  · intro later run
    have precedes := Precedes.run run
    exact ⟨fun _ _ => precedes.getElem?, fun _ => precedes.not_live⟩
  · intro place token next later taken run
    obtain ⟨stores, dead⟩ := sound.not_live_of_take? taken
    have precedes := Precedes.run run
    exact ⟨precedes.getElem? stores, precedes.not_live stores.lt_size dead⟩

/-- Its tokens are numbered from 0 to 11.  Folding the angle run stores a group for
it, with the number 12. -/
def nestedText : String := "f<g<a>>(x);"

def nestedLexemes : List Lexeme :=
  [⟨.word, "f", .ofLength 0 1⟩, ⟨.opening .angle, "<", .ofLength 1 1⟩,
    ⟨.word, "g", .ofLength 2 1⟩, ⟨.opening .angle, "<", .ofLength 3 1⟩,
    ⟨.word, "a", .ofLength 4 1⟩, ⟨.closing .angle, ">", .ofLength 5 1⟩,
    ⟨.closing .angle, ">", .ofLength 6 1⟩, ⟨.opening .round, "(", .ofLength 7 1⟩,
    ⟨.word, "x", .ofLength 8 1⟩, ⟨.closing .round, ")", .ofLength 9 1⟩,
    ⟨.punct .semicolon, ";", .ofLength 10 1⟩]

def nestedChain : Chain := .ofLexemes .cpp (.ofText nestedText.toList) nestedLexemes

def foldedChain : Chain := (nestedChain.foldAngleRun? 1).getD nestedChain

theorem reached_foldedChain : Reached foldedChain := by
  have read : lex nestedText = .ok nestedLexemes := by cbv
  have tokenized : tokenize nestedText .cpp = .ok nestedChain := by
    rw [tokenize, read]
    rfl
  exact .tokenized tokenized (.single (.foldAngleRun nestedChain 1))

theorem reached_sound_foldedChain :
    Reached foldedChain ∧ (foldedChain.live.map Token.id).Nodup ∧
      foldedChain.placeOf? 12 = some 1 ∧
      ∃ group next, foldedChain.take? 1 = some (group, next) ∧
        group.nested.map Token.id = [1, 2, 3, 4, 5, 6] ∧
        ∀ later, Run next later →
          later.stored[12]? = some group ∧ 12 ∉ later.live.map Token.id := by
  obtain ⟨distinct, _, _, _, places, _, takenOut⟩ := reached_sound reached_foldedChain
  have takes : (foldedChain.take? 1).map (fun taken =>
      (taken.1.id, taken.1.nested.map Token.id)) = some (12, [1, 2, 3, 4, 5, 6]) := by
    decide +kernel
  obtain ⟨⟨group, next⟩, taken, isGroup⟩ := Option.map_eq_some_iff.1 takes
  obtain ⟨isId, isNested⟩ := Prod.mk.inj isGroup
  refine ⟨reached_foldedChain, distinct, (places 12 1).2 (by decide +kernel), group, next, taken,
    isNested, fun later run => ?_⟩
  rw [← isId]
  exact takenOut 1 group next later taken run

end Chain

end DeclScan
