import Mathlib
import DeclScan.Proofs.Commits

/-!
# What a scan does not depend on

What is found does not depend on the sink, on storage keywords or on whether the
file is a header.  Only the language of the file counts, and of the storage
keywords only the external one shows in offers: `Chain.scan_independent`.
-/

set_option autoImplicit false

namespace DeclScan

section Header

variable (language : Language) (isHeader isHeader' : Bool) (entry : ScopeKind)

theorem Declarator.find?_header (passed ahead : List Token) :
    find? ⟨language, isHeader⟩ entry passed ahead =
      find? ⟨language, isHeader'⟩ entry passed ahead := rfl

theorem Declaration.readFrom_header (known : Option Token) (passed ahead : List Token) :
    readFrom ⟨language, isHeader⟩ entry known passed ahead =
      readFrom ⟨language, isHeader'⟩ entry known passed ahead := by
  fun_induction readFrom ⟨language, isHeader⟩ entry known passed ahead with
  | case1 known passed ahead none =>
    rw [readFrom_eq, Declarator.find?_header language isHeader' isHeader, none]
  | case2 known passed ahead declarator found none =>
    rw [readFrom_eq, Declarator.find?_header language isHeader' isHeader, found]
    simp only [none]
  | case3 known passed ahead declarator found typeEnd ended first none =>
    rw [readFrom_eq, Declarator.find?_header language isHeader' isHeader, found]
    simp only [ended, none]
    rfl
  | case4 known passed ahead declarator found typeEnd ended first passed' ahead' next others ih =>
    rw [readFrom_eq, Declarator.find?_header language isHeader' isHeader, found]
    simp only [ended, next, ← ih]
    rfl

theorem Declaration.read_header (live : List Token) :
    read ⟨language, isHeader⟩ entry live = read ⟨language, isHeader'⟩ entry live := by
  cases live with
  | nil => rfl
  | cons first rest => simp only [read, readFrom_header language isHeader isHeader']

end Header

/-- The tag without the one mark that headers and static storage show in. -/
def Tag.withoutFileScope (tag : Tag) : Tag := { tag with fileScope := false }

/-- The sink that accepts and refuses offers by a policy, which may remember
what it was offered, and keeps the committed tags. -/
def Sink.ofPolicy {ρ : Type} (policy : ρ → Offer → Bool × ρ) : Sink (ρ × Array Tag) where
  start state offer :=
    let (accepted, memory) := policy state.1 offer
    (if accepted then some offer.tag else none, memory, state.2)
  commit state tag := (state.1, state.2.push tag)

/-- No policy sees tags. -/
theorem Sink.sees_ofPolicy {ρ : Type} {ofTag : Tag → Tag} (policy : ρ → Offer → Bool × ρ) :
    (Sink.ofPolicy policy).Sees id ofTag fun first second =>
      first.1 = second.1 ∧ first.2.map ofTag = second.2.map ofTag where
  start := by
    intro first second offer other isAlike sameOffer
    obtain rfl : offer = other := sameOffer
    simp only [Sink.ofPolicy, isAlike.1, isAlike.2, and_self]
  commit := by
    intro first second tag other isAlike sameTag
    refine ⟨isAlike.1, ?_⟩
    simp only [Sink.ofPolicy, Array.map_push, isAlike.2, sameTag]

theorem Scan.lookSame_withoutFileScope {context context' : Context} (scopes : ScopeStack)
    (sameExtern : context.storage.seenExtern = context'.storage.seenExtern) (declared : Variable) :
    LookSame id Tag.withoutFileScope context context' scopes declared declared where
  offered := by simp only [Context.offered, Context.offer, sameExtern]
  completed := by
    intro tag tag' sameTag
    simp only [Tag.withoutFileScope, Tag.mk.injEq] at sameTag
    simp [Context.complete, Tag.withoutFileScope, sameTag]

theorem TagKind.mem_all (kind : TagKind) : kind ∈ TagKind.all := by
  cases kind <;> simp [TagKind.all]

namespace Collector

theorem offerTo_sink (context : Scan.Context) (scopes : ScopeStack) (declared : Variable)
    (collector : Collector) :
    Scan.offerTo sink context scopes declared collector =
      if (context.offer scopes declared).kind ∈ collector.accepted then
        { collector with
          tags := collector.tags.push
            (context.complete declared (context.offer scopes declared).tag) }
      else collector := by
  by_cases isAccepted : (context.offer scopes declared).kind ∈ collector.accepted
  · simp [Scan.offerTo, sink, accepts, isAccepted, Scan.Context.complete]
  · simp [Scan.offerTo, sink, accepts, isAccepted]

structure Holds (kinds : List TagKind) (chosen every : Collector) : Prop where
  accepted : chosen.accepted = kinds
  acceptsAll : every.accepted = TagKind.all
  tags : chosen.tags = every.tags.filter fun tag => tag.kind ∈ kinds

theorem Holds.offerTo {kinds : List TagKind} {chosen every : Collector} (holds : Holds kinds chosen every)
    (context : Scan.Context) (scopes : ScopeStack) (declared : Variable) :
    Holds kinds (Scan.offerTo sink context scopes declared chosen)
      (Scan.offerTo sink context scopes declared every) := by
  have inAll : (context.offer scopes declared).kind ∈ every.accepted := by
    rw [holds.acceptsAll]
    exact TagKind.mem_all _
  rw [offerTo_sink, offerTo_sink, if_pos inAll, holds.accepted]
  by_cases isAccepted : (context.offer scopes declared).kind ∈ kinds
  · rw [if_pos isAccepted]
    refine ⟨rfl, holds.acceptsAll, ?_⟩
    have kept : (context.complete declared (context.offer scopes declared).tag).kind ∈ kinds :=
      isAccepted
    simp [holds.tags, kept]
  · rw [if_neg isAccepted]
    refine ⟨holds.accepted, holds.acceptsAll, ?_⟩
    have left : (context.complete declared (context.offer scopes declared).tag).kind ∉ kinds :=
      isAccepted
    simp [holds.tags, left]

theorem Holds.offerAll {kinds : List TagKind} {chosen every : Collector} (holds : Holds kinds chosen every)
    (context : Scan.Context) (scopes : ScopeStack) (found : List Variable) :
    Holds kinds (Scan.offerAll sink context scopes found chosen)
      (Scan.offerAll sink context scopes found every) := by
  induction found generalizing chosen every with
  | nil => exact holds
  | cons declared rest ih => exact ih (holds.offerTo context _ declared)

end Collector

/-! ## Scans -/

namespace Chain

section Pair

variable {language : Language} {isHeader isHeader' : Bool} {storage storage' : Storage}
  {chain : Chain} {scopes : ScopeStack} {σ τ : Type} {sink : Sink σ} {sink' : Sink τ} {state : σ}
  {state' : τ}

theorem found_scan_independent :
    (chain.scan sink ⟨language, isHeader⟩ storage scopes state).found =
      (chain.scan sink' ⟨language, isHeader'⟩ storage' scopes state').found := by
  rw [found_scan, found_scan, Declaration.read_header language isHeader isHeader']

theorem chain_scan_independent :
    (chain.scan sink ⟨language, isHeader⟩ storage scopes state).chain =
      (chain.scan sink' ⟨language, isHeader'⟩ storage' scopes state').chain := by
  simp only [scan, Declaration.read_header language isHeader isHeader']

theorem offers_independent :
    ((chain.offers sink ⟨language, isHeader⟩ storage scopes state).map fun offer =>
        (offer.anchor, offer.name, offer.scopes)) =
      (chain.offers sink' ⟨language, isHeader'⟩ storage' scopes state').map fun offer =>
        (offer.anchor, offer.name, offer.scopes) := by
  rw [offers_eq, offers_eq, Declaration.read_header language isHeader isHeader', List.map_map,
    List.map_map]
  rfl

theorem offers_eq_of_seenExtern (sameExtern : storage.seenExtern = storage'.seenExtern) :
    chain.offers sink ⟨language, isHeader⟩ storage scopes state =
      chain.offers sink' ⟨language, isHeader'⟩ storage' scopes state' := by
  rw [offers_eq, offers_eq, Declaration.read_header language isHeader isHeader']
  refine List.map_congr_left fun declared _ => ?_
  simp only [Scan.Context.offered, Scan.Context.offer, sameExtern]

theorem committed_independent {alike : σ → σ → Prop}
    (sees : sink.Sees id Tag.withoutFileScope alike)
    (sameExtern : storage.seenExtern = storage'.seenExtern) (isAlike : alike state state) :
    alike (chain.scan sink ⟨language, isHeader⟩ storage scopes state).state
        (chain.scan sink ⟨language, isHeader'⟩ storage' scopes state).state ∧
      (chain.committed sink ⟨language, isHeader⟩ storage scopes state).map Tag.withoutFileScope =
        (chain.committed sink ⟨language, isHeader'⟩ storage' scopes state).map
          Tag.withoutFileScope := by
  refine alike_scan sees ?_ isAlike
  rw [Declaration.read_header language isHeader isHeader', List.forall₂_same]
  intro declared _
  exact Scan.lookSame_withoutFileScope scopes sameExtern declared

theorem holds_scan {file : SourceFile} {kinds : List TagKind} {chosen every : Collector}
    (holds : Collector.Holds kinds chosen every) :
    Collector.Holds kinds (chain.scan Collector.sink file storage scopes chosen).state
      (chain.scan Collector.sink file storage scopes every).state := by
  rw [state_scan, state_scan]
  exact holds.offerAll _ scopes _

end Pair

/-- What is found, what stays live, the scopes and the offers are the same for
all sinks, storage keywords and headers, and the kinds of the offers are if
external storage is.  A sink that sees no file scopes gets tags that differ in
nothing else, and so does every policy that goes by what it is offered.  A
collector of some kinds gets what a collector of all kinds gets of these. -/
theorem scan_independent (language : Language) (chain : Chain) (scopes : ScopeStack) :
    (∀ (isHeader isHeader' : Bool) (storage storage' : Storage) (σ τ : Type) (sink : Sink σ)
        (sink' : Sink τ) (state : σ) (state' : τ),
      let first := chain.scan sink ⟨language, isHeader⟩ storage scopes state
      let second := chain.scan sink' ⟨language, isHeader'⟩ storage' scopes state'
      let offers := chain.offers sink ⟨language, isHeader⟩ storage scopes state
      let offers' := chain.offers sink' ⟨language, isHeader'⟩ storage' scopes state'
      first.found = second.found ∧ first.chain = second.chain ∧ first.scopes = second.scopes ∧
        (offers.map fun offer => (offer.anchor, offer.name, offer.scopes)) =
          (offers'.map fun offer => (offer.anchor, offer.name, offer.scopes)) ∧
        (storage.seenExtern = storage'.seenExtern →
          offers.map Offer.kind = offers'.map Offer.kind)) ∧
    (∀ (isHeader isHeader' seenExtern seenStatic seenStatic' : Bool) (σ : Type) (sink : Sink σ)
        (alike : σ → σ → Prop) (state : σ),
      sink.Sees id Tag.withoutFileScope alike → alike state state →
        (chain.committed sink ⟨language, isHeader⟩ ⟨seenExtern, seenStatic⟩ scopes state).map
            Tag.withoutFileScope =
          (chain.committed sink ⟨language, isHeader'⟩ ⟨seenExtern, seenStatic'⟩ scopes state).map
            Tag.withoutFileScope) ∧
    (∀ (isHeader isHeader' seenExtern seenStatic seenStatic' : Bool) (ρ : Type)
        (policy : ρ → Offer → Bool × ρ) (memory : ρ),
      ((chain.scan (.ofPolicy policy) ⟨language, isHeader⟩ ⟨seenExtern, seenStatic⟩ scopes
            (memory, #[])).state.2.map Tag.withoutFileScope) =
        (chain.scan (.ofPolicy policy) ⟨language, isHeader'⟩ ⟨seenExtern, seenStatic'⟩ scopes
            (memory, #[])).state.2.map Tag.withoutFileScope) ∧
    ∀ (isHeader : Bool) (storage : Storage) (kinds : List TagKind) (before : Array Tag),
      let wanted (tag : Tag) : Bool := tag.kind ∈ kinds
      let chosen := chain.scan Collector.sink ⟨language, isHeader⟩ storage scopes
        ⟨kinds, before.filter wanted⟩
      let every := chain.scan Collector.sink ⟨language, isHeader⟩ storage scopes
        ⟨TagKind.all, before⟩
      chosen.state.tags = every.state.tags.filter wanted ∧ chosen.found = every.found := by
  refine ⟨?_, ?_, ?_, ?_⟩
  · intro isHeader isHeader' storage storage' σ τ sink sink' state state'
    refine ⟨found_scan_independent, chain_scan_independent, ?_, offers_independent, ?_⟩
    · rw [scopes_scan, scopes_scan]
    · intro sameExtern
      exact congrArg (List.map Offer.kind) (offers_eq_of_seenExtern sameExtern)
  · intro isHeader isHeader' seenExtern seenStatic seenStatic' σ sink alike state sees isAlike
    have sameExtern : (⟨seenExtern, seenStatic⟩ : Storage).seenExtern =
        (⟨seenExtern, seenStatic'⟩ : Storage).seenExtern := rfl
    exact (committed_independent sees sameExtern isAlike).2
  · intro isHeader isHeader' seenExtern seenStatic seenStatic' ρ policy memory
    have sameExtern : (⟨seenExtern, seenStatic⟩ : Storage).seenExtern =
        (⟨seenExtern, seenStatic'⟩ : Storage).seenExtern := rfl
    exact (committed_independent (Sink.sees_ofPolicy policy) sameExtern ⟨rfl, rfl⟩).1.2
  · intro isHeader storage kinds before
    have holds : Collector.Holds kinds ⟨kinds, before.filter fun tag => tag.kind ∈ kinds⟩
        ⟨TagKind.all, before⟩ := ⟨rfl, rfl, rfl⟩
    exact ⟨(holds_scan holds).tags, rfl⟩

/-- The chain of `int a, b, c;`. -/
def threeNames : Chain :=
  .ofLexemes .cpp ⟨[]⟩ [⟨.word, "int", .ofLength 0 3⟩, ⟨.word, "a", .ofLength 4 1⟩,
    ⟨.punct .comma, ",", .ofLength 5 1⟩, ⟨.word, "b", .ofLength 7 1⟩,
    ⟨.punct .comma, ",", .ofLength 8 1⟩, ⟨.word, "c", .ofLength 10 1⟩,
    ⟨.punct .semicolon, ";", .ofLength 11 1⟩]

def everyOther : Sink (Bool × Array Tag) :=
  .ofPolicy fun takes _ => (takes, !takes)

theorem scan_independent_threeNames :
    (everyOther.Sees id Tag.withoutFileScope fun first second =>
      first.1 = second.1 ∧
        first.2.map Tag.withoutFileScope = second.2.map Tag.withoutFileScope) ∧
    (threeNames.committed everyOther ⟨.cpp, false⟩ ⟨false, true⟩ .empty (true, #[])).map
        (fun tag => (tag.name, tag.fileScope)) = [("a", true), ("c", true)] ∧
    (threeNames.committed everyOther ⟨.cpp, true⟩ ⟨false, true⟩ .empty (true, #[])).map
        Tag.withoutFileScope =
      [⟨"a", .namespaceVariable, ⟨0, 4⟩, none, none, none, false⟩,
        ⟨"c", .namespaceVariable, ⟨0, 10⟩, none, none, none, false⟩] ∧
    (threeNames.offers everyOther ⟨.cpp, true⟩ ⟨true, true⟩ .empty (true, #[])).map Offer.kind =
      (threeNames.offers Collector.sink ⟨.cpp, false⟩ ⟨true, false⟩ .empty
        (.empty [.externalVariable])).map Offer.kind := by
  have sees : everyOther.Sees id Tag.withoutFileScope _ := Sink.sees_ofPolicy _
  obtain ⟨sinks, storages, _, _⟩ := scan_independent .cpp threeNames .empty
  have sameTags := storages true false false true true _ everyOther _ (true, #[]) sees ⟨rfl, rfl⟩
  obtain ⟨_, _, _, _, sameKinds⟩ := sinks true false ⟨true, true⟩ ⟨true, false⟩ _ _ everyOther
    Collector.sink (true, #[]) (.empty [.externalVariable])
  refine ⟨sees, ?_, ?_, sameKinds rfl⟩
  · decide +kernel
  · rw [sameTags]
    decide +kernel

/-- Takes variables until one is visible in its file only, and keeps the committed tags. -/
def untilFileScope : Sink (List Tag) where
  start tags offer := (if tags.any Tag.fileScope then none else some offer.tag, tags)
  commit tags tag := tags ++ [tag]

/-- A sink that sees the file scope of what it is given refuses, in a source
file, variables that it takes in a header. -/
theorem tags_differ_by_header :
    (threeNames.scan untilFileScope ⟨.cpp, false⟩ ⟨false, true⟩ .empty []).state.map
        Tag.withoutFileScope =
      [⟨"a", .namespaceVariable, ⟨0, 4⟩, none, none, none, false⟩] ∧
    (threeNames.scan untilFileScope ⟨.cpp, true⟩ ⟨false, true⟩ .empty []).state.map
        Tag.withoutFileScope =
      [⟨"a", .namespaceVariable, ⟨0, 4⟩, none, none, none, false⟩,
        ⟨"b", .namespaceVariable, ⟨0, 7⟩, none, none, none, false⟩,
        ⟨"c", .namespaceVariable, ⟨0, 10⟩, none, none, none, false⟩] := by
  constructor
  · decide +kernel
  · decide +kernel

end Chain

end DeclScan
