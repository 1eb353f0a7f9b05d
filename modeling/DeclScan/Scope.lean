/-!
# Enclosing scopes

The scopes around a statement form a stack.  The outermost level, where the
stack is empty, counts as a namespace.
-/

set_option autoImplicit false

namespace DeclScan

inductive ScopeKind where
  | inNamespace
  | inClass
  | inStruct
  | inUnion
  | inEnum
  | inFunction
deriving DecidableEq, Repr

def ScopeKind.name : ScopeKind → String
  | .inNamespace => "namespace"
  | .inClass => "class"
  | .inStruct => "struct"
  | .inUnion => "union"
  | .inEnum => "enum"
  | .inFunction => "function"

inductive Access where
  | unknown
  | publicAccess
  | protectedAccess
  | privateAccess
deriving DecidableEq, Repr

/-- One scope.  The anchor is the identity of the token that names it, where
the scope comes from a qualifier in a statement. -/
structure ScopeFrame where
  name : String
  kind : ScopeKind
  access : Access
  anchor : Option Nat := none
deriving DecidableEq, Repr

/-- Scopes, the innermost one first. -/
structure ScopeStack where
  frames : List ScopeFrame
deriving DecidableEq, Repr

namespace ScopeStack

def empty : ScopeStack := ⟨[]⟩

def push (stack : ScopeStack) (frame : ScopeFrame) : ScopeStack := ⟨frame :: stack.frames⟩

def pop (stack : ScopeStack) : ScopeStack := ⟨stack.frames.tail⟩

theorem pop_push (stack : ScopeStack) (frame : ScopeFrame) : (stack.push frame).pop = stack := rfl

def innermost? (stack : ScopeStack) : Option ScopeFrame := stack.frames.head?

def depth (stack : ScopeStack) : Nat := stack.frames.length

def outermostFirst (stack : ScopeStack) : List ScopeFrame := stack.frames.reverse

def currentKind (stack : ScopeStack) : ScopeKind :=
  match stack.innermost? with
  | some frame => frame.kind
  | none => .inNamespace

/-- The names of the scopes from the outermost one on, none at the outermost
level. -/
def qualifiedName? (stack : ScopeStack) : Option String :=
  match stack.outermostFirst with
  | [] => none
  | frames => some ("::".intercalate (frames.map ScopeFrame.name))

end ScopeStack

end DeclScan
