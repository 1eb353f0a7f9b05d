import DeclScan.Proofs.Stretch
import DeclScan.Session

/-!
# What a sink is offered, and what a scan leaves behind

The offers of a scan are those that a logging sink keeps; no sink can change
them.  Each variable is offered under the enclosing scopes and one more scope
for each of its own qualifiers, and a scan takes nothing but these qualifiers
out of the live tokens.
-/

set_option autoImplicit false

namespace DeclScan

def Chain.offers {σ : Type} (sink : Sink σ) (file : SourceFile) (storage : Storage)
    (chain : Chain) (scopes : ScopeStack) (state : σ) : List Offer :=
  (chain.scan sink.logged file storage scopes (state, #[])).state.2.toList

namespace Scan

def Context.offered (context : Context) (scopes : ScopeStack) (declared : Variable) : Offer :=
  context.offer (enterQualifiers scopes declared.qualifiers) declared

theorem outermostFirst_enterQualifiers (scopes : ScopeStack) (qualifiers : List Token) :
    (enterQualifiers scopes qualifiers).outermostFirst =
      scopes.outermostFirst ++ qualifiers.reverse.map qualifierFrame := by
  rw [ScopeStack.outermostFirst, frames_enterQualifiers, List.reverse_append, List.map_reverse]
  rfl

section Logged

variable {σ : Type} (sink : Sink σ) (context : Context) (scopes : ScopeStack)

theorem offerTo_logged (declared : Variable) (state : σ) (log : Array Offer) :
    offerTo sink.logged context scopes declared (state, log) =
      (offerTo sink context scopes declared state,
        log.push (context.offer scopes declared)) := by
  cases answer : sink.start state (context.offer scopes declared) with
  | mk tag? next => cases tag? <;> simp [offerTo, Sink.logged, answer]

theorem emit_logged (declared : Variable) (state : σ) (log : Array Offer) :
    emit sink.logged context (scopes, (state, log)) declared =
      (scopes, ((emit sink context (scopes, state) declared).2,
        log.push (context.offered scopes declared))) := by
  simp only [emit, offerTo_logged, leaveQualifiers_enterQualifiers]
  rfl

/-- Keeping a log changes nothing else, and the log holds one offer for each
variable. -/
theorem foldl_emit_logged (found : List Variable) (state : σ) (log : Array Offer) :
    found.foldl (emit sink.logged context) (scopes, (state, log)) =
      (scopes, ((found.foldl (emit sink context) (scopes, state)).2,
        log ++ (found.map (context.offered scopes)).toArray)) := by
  induction found generalizing state log with
  | nil => simp
  | cons declared rest ih =>
    have entered : emit sink context (scopes, state) declared =
        (scopes, (emit sink context (scopes, state) declared).2) :=
      Prod.ext (scopes_emit sink context (scopes, state) declared) rfl
    rw [List.foldl_cons, emit_logged, ih, List.foldl_cons, ← entered]
    simp

end Logged

end Scan

def Stretch.OfferedIn (scopes : ScopeStack) (stretch : Stretch) (offer : Offer) : Prop :=
  stretch.Names offer.anchor ∧
    offer.scopes.outermostFirst = scopes.outermostFirst ++
      stretch.qualifiers.map fun qualifier => Scan.qualifierFrame qualifier.name

theorem Stretch.Declares.offeredIn {stretch : Stretch} {declared : Variable}
    (declares : stretch.Declares declared) (context : Scan.Context) (scopes : ScopeStack) :
    stretch.OfferedIn scopes (context.offered scopes declared) := by
  refine ⟨declares.1, ?_⟩
  rw [Scan.Context.offered, Scan.Context.offer, Scan.outermostFirst_enterQualifiers, declares.2,
    List.map_map]
  rfl

namespace Chain

variable {σ : Type} (sink : Sink σ) (file : SourceFile) (storage : Storage) (chain : Chain)
  (scopes : ScopeStack) (state : σ)

theorem offers_eq :
    chain.offers sink file storage scopes state =
      (Declaration.read file scopes.currentKind chain.live).declared.map
        (Scan.Context.offered ⟨file, storage, scopes.currentKind⟩ scopes) := by
  simp [offers, scan, Scan.foldl_emit_logged]

theorem anchors_offers :
    (chain.offers sink file storage scopes state).map Offer.anchor =
      (Declaration.read file scopes.currentKind chain.live).declared.map Variable.name := by
  rw [offers_eq, List.map_map]
  rfl

theorem found_scan :
    (chain.scan sink file storage scopes state).found =
      !(Declaration.read file scopes.currentKind chain.live).declared.isEmpty := rfl

theorem scopes_scan : (chain.scan sink file storage scopes state).scopes = scopes :=
  Scan.scopes_foldl_emit sink _ _ (scopes, state)

/-- A scan that finds nothing changes nothing. -/
theorem scan_of_not_found (nothing : (chain.scan sink file storage scopes state).found = false) :
    chain.scan sink file storage scopes state = ⟨false, chain, scopes, state⟩ := by
  have none : (Declaration.read file scopes.currentKind chain.live).declared = [] := by
    simpa [found_scan] using nothing
  have live := Declaration.live_of_declared_eq_nil none
  simp only [scan, none, live]
  rfl

/-- The live tokens are divided into one stretch for each offer, and a rest. -/
theorem exists_stretches :
    ∃ stretches rest,
      chain.live = stretches.flatMap Stretch.tokens ++ rest ∧
      (chain.scan sink file storage scopes state).chain.live =
        stretches.flatMap Stretch.kept ++ rest ∧
      List.Forall₂ (fun (stretch : Stretch) (offer : Offer) =>
          stretch.Names offer.anchor ∧
            offer.scopes.outermostFirst = scopes.outermostFirst ++
              stretch.qualifiers.map fun qualifier => Scan.qualifierFrame qualifier.name)
        stretches (chain.offers sink file storage scopes state) := by
  obtain ⟨stretches, rest, whole, kept, declared⟩ :=
    Declaration.read_stretches file scopes.currentKind chain.live
  refine ⟨stretches, rest, whole, kept, ?_⟩
  rw [offers_eq, List.forall₂_map_right_iff]
  exact declared.imp fun _ _ isDeclared => isDeclared.offeredIn _ scopes

/-- A scan leaves the scopes as they were.  While a variable is offered, the
enclosing scopes are extended by exactly one scope for each qualifier that
stands before its name. -/
theorem scan_scopes_and_offered_scopes :
    (chain.scan sink file storage scopes state).scopes = scopes ∧
      ∃ stretches rest,
        chain.live = stretches.flatMap Stretch.tokens ++ rest ∧
        List.Forall₂ (fun (stretch : Stretch) (offer : Offer) =>
            stretch.Names offer.anchor ∧
              offer.scopes.outermostFirst = scopes.outermostFirst ++
                stretch.qualifiers.map fun qualifier =>
                  ScopeFrame.mk qualifier.name.text .inClass .unknown (some qualifier.name.id))
          stretches (chain.offers sink file storage scopes state) := by
  obtain ⟨stretches, rest, whole, _, offered⟩ :=
    exists_stretches sink file storage chain scopes state
  exact ⟨scopes_scan sink file storage chain scopes state, stretches, rest, whole, offered⟩

theorem depth_of_outermostFirst {inner : ScopeStack} {frames : List ScopeFrame}
    (extended : inner.outermostFirst = scopes.outermostFirst ++ frames) :
    inner.depth = scopes.depth + frames.length := by
  have lengths := congrArg List.length extended
  simpa [ScopeStack.outermostFirst, ScopeStack.depth] using lengths

theorem map_depth_sub {stretches : List Stretch} {offers : List Offer}
    (deeper : List.Forall₂ (fun (stretch : Stretch) (offer : Offer) =>
      stretch.Names offer.anchor ∧
        offer.scopes.depth = scopes.depth + stretch.qualifiers.length) stretches offers) :
    (offers.map fun offer => offer.scopes.depth - scopes.depth) =
      stretches.map fun stretch => stretch.qualifiers.length := by
  induction deeper with
  | nil => rfl
  | cons isOffered _ ih =>
    rw [List.map_cons, List.map_cons, ih, isOffered.2, Nat.add_sub_cancel_left]

/-- A scan stores no token and takes the names of qualifiers out of the live
ones: as many as the offers have scopes beyond the enclosing ones.  The tokens
behind the last declared name all stay.  Where nothing is found, or the
statement cannot be read, everything is as before and nothing is offered. -/
theorem scan_takes_out_qualifiers_only :
    (chain.scan sink file storage scopes state).chain.stored = chain.stored ∧
      (∃ stretches rest,
        chain.live = stretches.flatMap Stretch.tokens ++ rest ∧
        (chain.scan sink file storage scopes state).chain.live =
          stretches.flatMap Stretch.kept ++ rest ∧
        List.Forall₂ (fun (stretch : Stretch) (offer : Offer) =>
            stretch.Names offer.anchor ∧
              offer.scopes.depth = scopes.depth + stretch.qualifiers.length)
          stretches (chain.offers sink file storage scopes state)) ∧
      (chain.scan sink file storage scopes state).chain.live.length +
          ((chain.offers sink file storage scopes state).map fun offer =>
            offer.scopes.depth - scopes.depth).sum = chain.live.length ∧
      ((chain.scan sink file storage scopes state).found = false →
        chain.scan sink file storage scopes state = ⟨false, chain, scopes, state⟩ ∧
          chain.offers sink file storage scopes state = []) ∧
      ∀ (source : String) (fault : LexFault),
        scanStatement sink file source scopes state = .error fault →
          lex source = .error fault ∧
            Session.after sink.logged ⟨file, scopes, (state, #[])⟩ source =
              ⟨file, scopes, (state, #[])⟩ := by
  obtain ⟨stretches, rest, whole, kept, offered⟩ :=
    exists_stretches sink file storage chain scopes state
  have deeper : List.Forall₂ (fun (stretch : Stretch) (offer : Offer) =>
      stretch.Names offer.anchor ∧
        offer.scopes.depth = scopes.depth + stretch.qualifiers.length)
      stretches (chain.offers sink file storage scopes state) := by
    refine offered.imp fun stretch offer isOffered => ⟨isOffered.1, ?_⟩
    rw [depth_of_outermostFirst scopes isOffered.2, List.length_map]
  have counts := map_depth_sub scopes deeper
  refine ⟨rfl, ⟨stretches, rest, whole, kept, deeper⟩, ?_, ?_, ?_⟩
  · rw [counts, kept, whole, List.length_append, List.length_append,
      Stretch.length_flatMap_tokens]
    omega
  · intro nothing
    have unchanged := scan_of_not_found sink file storage chain scopes state nothing
    refine ⟨unchanged, ?_⟩
    rw [found_scan, Bool.not_eq_false', List.isEmpty_iff] at nothing
    rw [offers_eq, nothing]
    rfl
  · intro source fault failed
    unfold scanStatement tokenize at failed
    cases reading : lex source with
    | ok lexemes => simp [reading] at failed
    | error other =>
      simp only [reading, Except.error.injEq] at failed
      refine ⟨by rw [failed], ?_⟩
      simp [Session.after, Session.scan, scanStatement, tokenize, reading]

end Chain

end DeclScan
