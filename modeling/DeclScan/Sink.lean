import DeclScan.Tag
import DeclScan.Token

/-!
# Sinks

A declared variable is offered to a sink.  The sink refuses the offer or
starts a tag, which is then completed and committed.  What a sink does may
depend on everything that it was offered before.
-/

set_option autoImplicit false

namespace DeclScan

structure Offer where
  name : String
  kind : TagKind
  anchor : Token
  scopes : ScopeStack

/-- The tag of an offer, which is visible everywhere and has no type
reference yet. -/
def Offer.tag (offer : Offer) : Tag where
  name := offer.name
  kind := offer.kind
  position := offer.anchor.position
  scope := offer.scopes.qualifiedName?
  scopeKind := offer.scopes.innermost?.map ScopeFrame.kind
  typeReference := none
  fileScope := false

/-- How a receiver of tags in state `σ` answers an offer and takes a completed
tag. -/
structure Sink (σ : Type) where
  start : σ → Offer → Option Tag × σ
  commit : σ → Tag → σ

namespace Sink

def refusing {σ : Type} : Sink σ where
  start state _ := (none, state)
  commit state _ := state

def logged {σ : Type} (sink : Sink σ) : Sink (σ × Array Offer) where
  start state offer :=
    let (tag?, inner) := sink.start state.1 offer
    (tag?, inner, state.2.push offer)
  commit state tag := (sink.commit state.1 tag, state.2)

end Sink

structure Collector where
  accepted : List TagKind
  tags : Array Tag

namespace Collector

def empty (accepted : List TagKind) : Collector := ⟨accepted, #[]⟩

def accepts (collector : Collector) (kind : TagKind) : Bool := kind ∈ collector.accepted

def sink : Sink Collector where
  start collector offer :=
    (if collector.accepts offer.kind then some offer.tag else none, collector)
  commit collector tag := { collector with tags := collector.tags.push tag }

end Collector

end DeclScan
