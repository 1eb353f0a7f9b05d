import Mathlib
import DeclScan.Proofs.Offers

/-!
# What is committed to a sink

The tags that a scan commits are those that a recording sink keeps.  Two scans
leave a sink in states that are alike if the sink overlooks everything in which
their offers and their tags differ: `Scan.alike_offerAll`.
-/

set_option autoImplicit false

namespace DeclScan

namespace Sink

variable {σ : Type}

def recorded (sink : Sink σ) : Sink (σ × Array Tag) where
  start state offer :=
    let (tag?, inner) := sink.start state.1 offer
    (tag?, inner, state.2)
  commit state tag := (sink.commit state.1 tag, state.2.push tag)

/-- The sink sees of offers and tags only what is left of them by these
functions: in states that are alike it then starts tags that look the same, and
it ends in states that are alike. -/
structure Sees (sink : Sink σ) (ofOffer : Offer → Offer) (ofTag : Tag → Tag)
    (alike : σ → σ → Prop) : Prop where
  start : ∀ {first second : σ} {offer other : Offer}, alike first second →
    ofOffer offer = ofOffer other →
      (sink.start first offer).1.map ofTag = (sink.start second other).1.map ofTag ∧
        alike (sink.start first offer).2 (sink.start second other).2
  commit : ∀ {first second : σ} {tag other : Tag}, alike first second →
    ofTag tag = ofTag other → alike (sink.commit first tag) (sink.commit second other)

variable {sink : Sink σ} {ofOffer : Offer → Offer} {ofTag : Tag → Tag} {alike : σ → σ → Prop}

theorem Sees.recorded (sees : sink.Sees ofOffer ofTag alike) :
    sink.recorded.Sees ofOffer ofTag fun first second =>
      alike first.1 second.1 ∧ first.2.map ofTag = second.2.map ofTag where
  start := by
    intro first second offer other isAlike sameOffer
    obtain ⟨answers, next⟩ := sees.start isAlike.1 sameOffer
    exact ⟨answers, next, isAlike.2⟩
  commit := by
    intro first second tag other isAlike sameTag
    refine ⟨sees.commit isAlike.1 sameTag, ?_⟩
    simp only [Sink.recorded, Array.map_push, isAlike.2, sameTag]

end Sink

/-- A collector sees no more than the kind of an offer and what a tag shows. -/
theorem Collector.sees {ofOffer : Offer → Offer} {ofTag : Tag → Tag}
    (kinds : ∀ {offer other : Offer}, ofOffer offer = ofOffer other → offer.kind = other.kind)
    (tags : ∀ {offer other : Offer}, ofOffer offer = ofOffer other →
      ofTag offer.tag = ofTag other.tag) :
    Collector.sink.Sees ofOffer ofTag fun first second =>
      first.accepted = second.accepted ∧ first.tags.map ofTag = second.tags.map ofTag where
  start := by
    intro first second offer other isAlike sameOffer
    refine ⟨?_, isAlike⟩
    simp only [Collector.sink, Collector.accepts, isAlike.1, kinds sameOffer]
    by_cases isAccepted : other.kind ∈ second.accepted
    · simp [isAccepted, tags sameOffer]
    · simp [isAccepted]
  commit := by
    intro first second tag other isAlike sameTag
    refine ⟨isAlike.1, ?_⟩
    simp only [Collector.sink, Array.map_push, isAlike.2, sameTag]

namespace Scan

def Context.complete (context : Context) (declared : Variable) (tag : Tag) : Tag :=
  { tag with typeReference := declared.typeReference, fileScope := context.isFileScope }

def offerAll {σ : Type} (sink : Sink σ) (context : Context) (scopes : ScopeStack)
    (found : List Variable) (state : σ) : σ :=
  found.foldl (fun state declared =>
    offerTo sink context (enterQualifiers scopes declared.qualifiers) declared state) state

theorem state_foldl_emit {σ : Type} (sink : Sink σ) (context : Context) (scopes : ScopeStack)
    (found : List Variable) (state : σ) :
    (found.foldl (emit sink context) (scopes, state)).2 =
      offerAll sink context scopes found state := by
  induction found generalizing state with
  | nil => rfl
  | cons declared rest ih =>
    have left : emit sink context (scopes, state) declared =
        (scopes, offerTo sink context (enterQualifiers scopes declared.qualifiers) declared
          state) :=
      Prod.ext (scopes_emit sink context (scopes, state) declared) rfl
    rw [List.foldl_cons, left, ih]
    rfl

section Recorded

variable {σ : Type} (sink : Sink σ) (context : Context) (scopes : ScopeStack)

/-- Keeping the committed tags changes nothing else. -/
theorem offerTo_recorded (declared : Variable) (state : σ) :
    ∃ more, ∀ tags : Array Tag, offerTo sink.recorded context scopes declared (state, tags) =
      (offerTo sink context scopes declared state, tags ++ more) := by
  cases answer : sink.start state (context.offer scopes declared) with
  | mk tag? next =>
    cases tag? with
    | none => exact ⟨#[], by simp [offerTo, Sink.recorded, answer]⟩
    | some tag =>
      exact ⟨#[context.complete declared tag], by
        simp [offerTo, Sink.recorded, answer, Context.complete]⟩

theorem offerAll_recorded (found : List Variable) (state : σ) :
    ∃ more, ∀ tags : Array Tag, offerAll sink.recorded context scopes found (state, tags) =
      (offerAll sink context scopes found state, tags ++ more) := by
  induction found generalizing state with
  | nil =>
    refine ⟨#[], fun tags => ?_⟩
    rw [Array.append_empty]
    rfl
  | cons declared rest ih =>
    obtain ⟨now, recordedNow⟩ := offerTo_recorded sink context
      (enterQualifiers scopes declared.qualifiers) declared state
    obtain ⟨later, recordedLater⟩ := ih
      (offerTo sink context (enterQualifiers scopes declared.qualifiers) declared state)
    refine ⟨now ++ later, fun tags => ?_⟩
    have step := recordedLater (tags ++ now)
    rw [← recordedNow, Array.append_assoc] at step
    exact step

end Recorded

section Sees

variable {σ : Type} {sink : Sink σ} {ofOffer : Offer → Offer} {ofTag : Tag → Tag}
  {alike : σ → σ → Prop} {context other : Context} {scopes : ScopeStack}

/-- Two variables look the same to a sink, when they are offered and when their
tags are completed. -/
structure LookSame (ofOffer : Offer → Offer) (ofTag : Tag → Tag) (context other : Context)
    (scopes : ScopeStack) (declared declared' : Variable) : Prop where
  offered : ofOffer (context.offered scopes declared) = ofOffer (other.offered scopes declared')
  completed : ∀ {tag tag' : Tag}, ofTag tag = ofTag tag' →
    ofTag (context.complete declared tag) = ofTag (other.complete declared' tag')

theorem alike_offerTo (sees : sink.Sees ofOffer ofTag alike) {declared declared' : Variable}
    (same : LookSame ofOffer ofTag context other scopes declared declared') {first second : σ}
    (isAlike : alike first second) :
    alike
      (offerTo sink context (enterQualifiers scopes declared.qualifiers) declared first)
      (offerTo sink other (enterQualifiers scopes declared'.qualifiers) declared' second) := by
  obtain ⟨sameAnswer, nextAlike⟩ := sees.start isAlike same.offered
  simp only [Context.offered] at sameAnswer nextAlike
  unfold offerTo
  cases started : sink.start first
      (context.offer (enterQualifiers scopes declared.qualifiers) declared) with
  | mk answer next =>
    cases started' : sink.start second
        (other.offer (enterQualifiers scopes declared'.qualifiers) declared') with
    | mk answer' next' =>
      simp only [started, started'] at sameAnswer nextAlike
      -- both answers refuse, or both start tags that look the same
      cases answer with
      | none =>
        obtain rfl := Option.map_eq_none_iff.1 sameAnswer.symm
        exact nextAlike
      | some tag =>
        obtain ⟨tag', rfl, sameTag⟩ := Option.map_eq_some_iff.1 sameAnswer.symm
        exact sees.commit nextAlike (same.completed sameTag.symm)

theorem alike_offerAll (sees : sink.Sees ofOffer ofTag alike) {found found' : List Variable}
    (same : List.Forall₂ (LookSame ofOffer ofTag context other scopes) found found')
    {first second : σ} (isAlike : alike first second) :
    alike (offerAll sink context scopes found first) (offerAll sink other scopes found' second) := by
  refine List.rel_foldl ?_ isAlike same
  intro first second stillAlike declared declared' lookSame
  exact alike_offerTo sees lookSame stillAlike

end Sees

end Scan

namespace Chain

variable {σ : Type} (sink : Sink σ) (file : SourceFile) (storage : Storage) (chain : Chain)
  (scopes : ScopeStack) (state : σ)

/-- The tags that a scan commits to a sink, in order. -/
def committed : List Tag :=
  (chain.scan sink.recorded file storage scopes (state, #[])).state.2.toList

theorem state_scan :
    (chain.scan sink file storage scopes state).state =
      Scan.offerAll sink ⟨file, storage, scopes.currentKind⟩ scopes
        (Declaration.read file scopes.currentKind chain.live).declared state :=
  Scan.state_foldl_emit sink _ scopes _ state

theorem state_scan_recorded (tags : Array Tag) :
    (chain.scan sink.recorded file storage scopes (state, tags)).state =
      ((chain.scan sink file storage scopes state).state,
        tags ++ (chain.committed sink file storage scopes state).toArray) := by
  obtain ⟨more, recorded⟩ := Scan.offerAll_recorded sink ⟨file, storage, scopes.currentKind⟩ scopes
    (Declaration.read file scopes.currentKind chain.live).declared state
  have isMore : chain.committed sink file storage scopes state = more.toList := by
    rw [committed, state_scan, recorded, Array.empty_append]
  rw [isMore, state_scan, state_scan, recorded, Array.toArray_toList]

/-- Where all variables look the same to a sink, so do the committed tags. -/
theorem alike_scan {sink : Sink σ} {ofOffer : Offer → Offer} {ofTag : Tag → Tag}
    {alike : σ → σ → Prop} (sees : sink.Sees ofOffer ofTag alike) {file file' : SourceFile}
    {storage storage' : Storage} {chain chain' : Chain} {scopes : ScopeStack}
    (same : List.Forall₂
      (Scan.LookSame ofOffer ofTag ⟨file, storage, scopes.currentKind⟩
        ⟨file', storage', scopes.currentKind⟩ scopes)
      (Declaration.read file scopes.currentKind chain.live).declared
      (Declaration.read file' scopes.currentKind chain'.live).declared)
    {state state' : σ} (isAlike : alike state state') :
    alike (chain.scan sink file storage scopes state).state
        (chain'.scan sink file' storage' scopes state').state ∧
      (chain.committed sink file storage scopes state).map ofTag =
        (chain'.committed sink file' storage' scopes state').map ofTag := by
  have ended :
      alike (chain.scan sink.recorded file storage scopes (state, #[])).state.1
          (chain'.scan sink.recorded file' storage' scopes (state', #[])).state.1 ∧
        (chain.scan sink.recorded file storage scopes (state, #[])).state.2.map ofTag =
          (chain'.scan sink.recorded file' storage' scopes (state', #[])).state.2.map ofTag := by
    rw [state_scan, state_scan]
    exact Scan.alike_offerAll sees.recorded same ⟨isAlike, rfl⟩
  constructor
  · rw [state_scan_recorded, state_scan_recorded] at ended
    exact ended.1
  · rw [committed, committed, ← Array.toList_map, ended.2, Array.toList_map]

end Chain

end DeclScan
