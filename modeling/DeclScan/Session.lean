import DeclScan.Scan

/-!
# Sessions

A session scans one statement after the other in one file.  Between statements
scopes are entered and left.  A statement that cannot be read leaves the
session as it was.
-/

set_option autoImplicit false

namespace DeclScan

structure Session (σ : Type) where
  file : SourceFile
  scopes : ScopeStack
  state : σ

namespace Session

def enter {σ : Type} (session : Session σ) (frame : ScopeFrame) : Session σ :=
  { session with scopes := session.scopes.push frame }

def leave {σ : Type} (session : Session σ) : Session σ :=
  { session with scopes := session.scopes.pop }

def scan {σ : Type} (sink : Sink σ) (session : Session σ) (source : String) :
    Except LexFault (Bool × Session σ) :=
  match scanStatement sink session.file source session.scopes session.state with
  | .ok outcome =>
    .ok (outcome.found, { session with scopes := outcome.scopes, state := outcome.state })
  | .error fault => .error fault

def after {σ : Type} (sink : Sink σ) (session : Session σ) (source : String) : Session σ :=
  match session.scan sink source with
  | .ok (_, next) => next
  | .error _ => session

end Session

end DeclScan
