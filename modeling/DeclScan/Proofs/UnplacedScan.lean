import Mathlib
import DeclScan.Proofs.Commits
import DeclScan.Proofs.UnplacedDeclaration

/-!
# Scans without places

What a scan finds, offers and leaves live does not depend on the places of
tokens, and the committed tags have no more of them than their own places, if
the sink sees none: `Chain.committed_of_unplaced_eq`.
-/

set_option autoImplicit false

namespace DeclScan

def Offer.unplaced (offer : Offer) : Offer := { offer with anchor := offer.anchor.unplaced }

def Tag.unplaced (tag : Tag) : Tag := { tag with position := ⟨0, 0⟩ }

theorem Offer.unplaced_tag (offer : Offer) : offer.unplaced.tag = offer.tag.unplaced := by
  have position : offer.unplaced.anchor.position = ⟨0, 0⟩ := by
    simp [unplaced, Token.unplaced_eq]
  simp only [Offer.tag, position]
  rfl

theorem Collector.sees_unplaced :
    Collector.sink.Sees Offer.unplaced Tag.unplaced fun first second =>
      first.accepted = second.accepted ∧
        first.tags.map Tag.unplaced = second.tags.map Tag.unplaced := by
  refine Collector.sees ?_ ?_
  · intro offer other same
    have sameKind : offer.unplaced.kind = other.unplaced.kind := by rw [same]
    exact sameKind
  · intro offer other same
    rw [← Offer.unplaced_tag, same, Offer.unplaced_tag]

theorem Storage.ofTokens_unplaced (tokens : List Token) :
    Storage.ofTokens (tokens.map Token.unplaced) = Storage.ofTokens tokens := by
  simp [Storage.ofTokens, Function.comp_def]

theorem Storage.ofTokens_of_unplaced_eq {chain chain' : Chain}
    (same : chain.unplaced = chain'.unplaced) :
    Storage.ofTokens chain.live = Storage.ofTokens chain'.live := by
  rw [← ofTokens_unplaced, Chain.live_of_unplaced_eq same, ofTokens_unplaced]

namespace Scan

theorem enterQualifiers_unplaced (scopes : ScopeStack) (qualifiers : List Token) :
    enterQualifiers scopes (qualifiers.map Token.unplaced) = enterQualifiers scopes qualifiers := by
  simp [enterQualifiers, List.foldr_map, qualifierFrame]

theorem Context.offered_unplaced (context : Context) (scopes : ScopeStack)
    (declared : Variable) :
    context.offered scopes declared.unplaced = (context.offered scopes declared).unplaced := by
  simp [Context.offered, Context.offer, Variable.unplaced, Offer.unplaced,
    enterQualifiers_unplaced]

/-- Places show neither in offers nor in completed tags. -/
theorem lookSame_of_unplaced (context : Context) (scopes : ScopeStack)
    {declared declared' : Variable} (same : declared.unplaced = declared'.unplaced) :
    LookSame Offer.unplaced Tag.unplaced context context scopes declared declared' where
  offered := by
    rw [← Context.offered_unplaced, ← Context.offered_unplaced, same]
  completed := by
    intro tag tag' sameTag
    have typeReferences : declared.unplaced.typeReference = declared'.unplaced.typeReference := by
      rw [same]
    have sameReference : declared.typeReference = declared'.typeReference := typeReferences
    change context.complete declared tag.unplaced = context.complete declared' tag'.unplaced
    rw [sameTag, Context.complete, Context.complete, sameReference]

end Scan

namespace Chain

variable {σ : Type} (sink : Sink σ) (file : SourceFile) (storage : Storage) (scopes : ScopeStack)

theorem found_unplaced (chain : Chain) (state : σ) :
    (chain.unplaced.scan sink file storage scopes state).found =
      (chain.scan sink file storage scopes state).found := by
  rw [found_scan, found_scan, unplaced, Declaration.unplaced_read]
  simp [Declaration.unplaced]

theorem chain_unplaced (chain : Chain) (state : σ) :
    (chain.unplaced.scan sink file storage scopes state).chain =
      (chain.scan sink file storage scopes state).chain.unplaced := by
  have live := Declaration.unplaced_read file scopes.currentKind chain.live
  simp only [scan, unplaced, live]
  rfl

theorem offers_unplaced (chain : Chain) (state : σ) :
    chain.unplaced.offers sink file storage scopes state =
      (chain.offers sink file storage scopes state).map Offer.unplaced := by
  rw [offers_eq, offers_eq, unplaced, Declaration.unplaced_read, Declaration.unplaced,
    List.map_map, List.map_map]
  refine List.map_congr_left fun declared _ => ?_
  exact Scan.Context.offered_unplaced _ scopes declared

theorem committed_of_unplaced_eq {chain chain' : Chain} (same : chain.unplaced = chain'.unplaced)
    {alike : σ → σ → Prop} (sees : sink.Sees Offer.unplaced Tag.unplaced alike) {state state' : σ}
    (isAlike : alike state state') :
    alike (chain.scan sink file storage scopes state).state
        (chain'.scan sink file storage scopes state').state ∧
      (chain.committed sink file storage scopes state).map Tag.unplaced =
        (chain'.committed sink file storage scopes state').map Tag.unplaced := by
  have reads : (Declaration.read file scopes.currentKind chain.live).unplaced =
      (Declaration.read file scopes.currentKind chain'.live).unplaced := by
    rw [← Declaration.unplaced_read, ← Declaration.unplaced_read, live_of_unplaced_eq same]
  have declared : List.Forall₂ Eq
      ((Declaration.read file scopes.currentKind chain.live).declared.map Variable.unplaced)
      ((Declaration.read file scopes.currentKind chain'.live).declared.map Variable.unplaced) := by
    rw [List.forall₂_eq_eq_eq]
    exact congrArg Declaration.declared reads
  rw [List.forall₂_map_left_iff, List.forall₂_map_right_iff] at declared
  refine alike_scan sees (declared.imp fun _ _ equal => ?_) isAlike
  exact Scan.lookSame_of_unplaced _ scopes equal

end Chain

end DeclScan
