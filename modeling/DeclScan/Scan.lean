import DeclScan.Chain.Folding
import DeclScan.Declaration
import DeclScan.Sink

/-!
# Scanning statements

A scan reads a statement's declaration and offers each variable to a sink, in
order.  The variable is offered under the enclosing scopes and one more scope
for each qualifier of its name; these are left again before the next variable.
-/

set_option autoImplicit false

namespace DeclScan

structure Storage where
  seenExtern : Bool
  seenStatic : Bool
deriving DecidableEq, Repr

def Storage.ofTokens (tokens : List Token) : Storage :=
  ⟨tokens.any fun token => token.kind = .keyword .kwExtern,
    tokens.any fun token => token.kind = .keyword .kwStatic⟩

namespace Scan

/-- The scope that a qualifier stands for.  It is unknown what the qualifier
really names. -/
def qualifierFrame (token : Token) : ScopeFrame :=
  { name := token.text, kind := .inClass, access := .unknown, anchor := some token.id }

def enterQualifiers (scopes : ScopeStack) (qualifiers : List Token) : ScopeStack :=
  qualifiers.foldr (fun token outer => outer.push (qualifierFrame token)) scopes

def leaveQualifiers (scopes : ScopeStack) (qualifiers : List Token) : ScopeStack :=
  qualifiers.foldl (fun inner _ => inner.pop) scopes

theorem leaveQualifiers_enterQualifiers (scopes : ScopeStack) (qualifiers : List Token) :
    leaveQualifiers (enterQualifiers scopes qualifiers) qualifiers = scopes := by
  induction qualifiers with
  | nil => rfl
  | cons token rest ih =>
    simp only [enterQualifiers, leaveQualifiers, List.foldr_cons, List.foldl_cons,
      ScopeStack.pop_push] at ih ⊢
    exact ih

theorem frames_enterQualifiers (scopes : ScopeStack) (qualifiers : List Token) :
    (enterQualifiers scopes qualifiers).frames =
      qualifiers.map qualifierFrame ++ scopes.frames := by
  induction qualifiers with
  | nil => rfl
  | cons token rest ih =>
    simp only [enterQualifiers, List.foldr_cons, ScopeStack.push] at ih ⊢
    simp [ih]

/-- What is known of a statement before it is read.  The entry is the kind of
the innermost enclosing scope. -/
structure Context where
  file : SourceFile
  storage : Storage
  entry : ScopeKind

def Context.isFileScope (context : Context) : Bool :=
  match context.entry with
  | .inNamespace => context.storage.seenStatic && !context.file.isHeader
  | .inFunction => true
  | _ => !context.file.isHeader

def Context.offer (context : Context) (scopes : ScopeStack) (declared : Variable) : Offer where
  name := declared.name.text
  kind := if context.storage.seenExtern then .externalVariable else scopes.variableKind
  anchor := declared.name
  scopes := scopes

def offerTo {σ : Type} (sink : Sink σ) (context : Context) (scopes : ScopeStack)
    (declared : Variable) (state : σ) : σ :=
  match sink.start state (context.offer scopes declared) with
  | (none, state) => state
  | (some tag, state) =>
    sink.commit state { tag with
      typeReference := declared.typeReference
      fileScope := context.isFileScope }

def emit {σ : Type} (sink : Sink σ) (context : Context) (current : ScopeStack × σ)
    (declared : Variable) : ScopeStack × σ :=
  let inner := enterQualifiers current.1 declared.qualifiers
  let state := offerTo sink context inner declared current.2
  (leaveQualifiers inner declared.qualifiers, state)

theorem scopes_emit {σ : Type} (sink : Sink σ) (context : Context) (current : ScopeStack × σ)
    (declared : Variable) : (emit sink context current declared).1 = current.1 :=
  leaveQualifiers_enterQualifiers current.1 declared.qualifiers

/-- Each variable is offered under the scopes that enclose the statement. -/
theorem scopes_foldl_emit {σ : Type} (sink : Sink σ) (context : Context)
    (found : List Variable) (current : ScopeStack × σ) :
    (found.foldl (emit sink context) current).1 = current.1 := by
  induction found generalizing current with
  | nil => rfl
  | cons declared rest ih =>
    rw [List.foldl_cons, ih, scopes_emit]

structure Outcome (σ : Type) where
  found : Bool
  chain : Chain
  scopes : ScopeStack
  state : σ

end Scan

def Chain.scan {σ : Type} (sink : Sink σ) (file : SourceFile) (storage : Storage)
    (chain : Chain) (scopes : ScopeStack) (state : σ) : Scan.Outcome σ :=
  let context : Scan.Context := ⟨file, storage, scopes.currentKind⟩
  let declaration := Declaration.read file context.entry chain.live
  let (scopes, state) := declaration.declared.foldl (Scan.emit sink context) (scopes, state)
  ⟨!declaration.declared.isEmpty, { chain with live := declaration.live }, scopes, state⟩

/-- Scans a statement's text, whose storage keywords are those of its own live
tokens. -/
def scanStatement {σ : Type} (sink : Sink σ) (file : SourceFile) (source : String)
    (scopes : ScopeStack) (state : σ) : Except LexFault (Scan.Outcome σ) :=
  match tokenize source file.language with
  | .ok chain => .ok (chain.scan sink file (.ofTokens chain.live) scopes state)
  | .error fault => .error fault

end DeclScan
