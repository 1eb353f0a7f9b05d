import DeclScan.Scope
import DeclScan.Text.Position

/-!
# Tags

A tag records one declared variable: its name, where it stands, what kind of
variable it is, and in which scope.
-/

set_option autoImplicit false

namespace DeclScan

/-- A variable of a namespace, one declared with external storage, a member
of a class, or one local to a function. -/
inductive TagKind where
  | namespaceVariable
  | externalVariable
  | member
  | localVariable
deriving DecidableEq, Repr

namespace TagKind

def all : List TagKind := [namespaceVariable, externalVariable, member, localVariable]

def name : TagKind → String
  | namespaceVariable => "variable"
  | externalVariable => "externvar"
  | member => "member"
  | localVariable => "local"

def letter : TagKind → Char
  | namespaceVariable => 'v'
  | externalVariable => 'x'
  | member => 'm'
  | localVariable => 'l'

end TagKind

def ScopeStack.variableKind (stack : ScopeStack) : TagKind :=
  match stack.currentKind with
  | .inClass | .inStruct | .inUnion => .member
  | .inFunction => .localVariable
  | .inNamespace | .inEnum => .namespaceVariable

structure TypeReference where
  keyword : String
  name : String
deriving DecidableEq, Repr

structure Tag where
  name : String
  kind : TagKind
  position : Position
  scope : Option String
  scopeKind : Option ScopeKind
  typeReference : Option TypeReference
  fileScope : Bool
deriving DecidableEq, Repr

end DeclScan
