import DeclScan.AngleRun

/-!
# Token chains

A chain stores every token it was ever given, and lists those that are live.
A token's identity is its place in the store, so it stays valid when the token
is taken out of the live list or moved into a group.
-/

set_option autoImplicit false

namespace DeclScan

structure Chain where
  stored : Array Token
  live : List Token

namespace Chain

def empty : Chain := ⟨#[], []⟩

/-- Stores a token without making it live. -/
def store (chain : Chain) (kind : TokenKind) (text : String) (span : Span)
    (position : Position) (nested : List Token) : Token × Chain :=
  let token := ⟨chain.stored.size, kind, text, span, position, nested⟩
  (token, { chain with stored := chain.stored.push token })

theorem stored_store (chain : Chain) (kind : TokenKind) (text : String) (span : Span)
    (position : Position) (nested : List Token) (id : Nat) :
    (chain.store kind text span position nested).2.stored[id]? =
      if id = chain.stored.size then some (chain.store kind text span position nested).1
      else chain.stored[id]? := by
  simp only [store, Array.getElem?_push]

def push (chain : Chain) (kind : TokenKind) (text : String) (span : Span)
    (position : Position) (nested : List Token) : Token × Chain :=
  let (token, chain) := chain.store kind text span position nested
  (token, { chain with live := chain.live ++ [token] })

def join (chain : Chain) : String := Token.join chain.live

def get? (chain : Chain) (place : Nat) : Option Token := chain.live[place]?

def kindAt? (chain : Chain) (place : Nat) : Option TokenKind :=
  (chain.get? place).map Token.kind

def placeOf? (chain : Chain) (id : Nat) : Option Nat :=
  chain.live.findIdx? fun token => token.id = id

def next? (chain : Chain) (place : Nat) (wanted : TokenKind → Bool) : Option Nat :=
  ((chain.live.drop (place + 1)).findIdx? fun token => wanted token.kind).map (· + (place + 1))

def angleRunEnd? (chain : Chain) (place : Nat) : Option Nat :=
  match chain.live.drop place with
  | [] => none
  | token :: rest =>
    if token.kind = .opening .angle then (AngleRun.length? 0 rest).map (place + ·) else none

def take? (chain : Chain) (place : Nat) : Option (Token × Chain) :=
  (chain.get? place).map fun token => (token, { chain with live := chain.live.eraseIdx place })

/-- The tokens of a region as one group: it spans from the first of them to
the last and stands where the first one does. -/
def storeGroup (chain : Chain) (bracket : Bracket) (first : Token) (rest : List Token) :
    Token × Chain :=
  let tokens := first :: rest
  let last := rest.getLastD first
  chain.store (.group bracket) (Token.join tokens) (first.span.cover last.span)
    first.position tokens

def foldAngleRun? (chain : Chain) (place : Nat) : Option Chain :=
  match chain.live.drop place with
  | [] => none
  | token :: rest =>
    if token.kind = .opening .angle then
      match AngleRun.length? 0 rest with
      | none => none
      | some length =>
        let (group, stored) := chain.storeGroup .angle token (rest.take length)
        some { stored with live := chain.live.take place ++ group :: rest.drop length }
    else none

end Chain

end DeclScan
