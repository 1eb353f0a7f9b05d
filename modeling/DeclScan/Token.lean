import DeclScan.Text.Position
import DeclScan.TokenKind

/-!
# Tokens

A token knows the tokens nested in it, so a group is a tree.  The identity of
a token is its number in the chain that stores it.
-/

set_option autoImplicit false

namespace DeclScan

structure Token where
  id : Nat
  kind : TokenKind
  text : String
  span : Span
  position : Position
  nested : List Token

namespace Token

def join (tokens : List Token) : String := " ".intercalate (tokens.map Token.text)

/-- What holds of no tokens, and of tokens if it holds of what is nested in the
first one and of the others, holds of all tokens. -/
theorem nested_induction {motive : List Token → Prop} (nil : motive [])
    (cons : ∀ token rest, motive token.nested → motive rest → motive (token :: rest)) :
    ∀ tokens, motive tokens
  | [] => nil
  | ⟨id, kind, text, span, position, nested⟩ :: rest =>
    cons ⟨id, kind, text, span, position, nested⟩ rest (nested_induction nil cons nested)
      (nested_induction nil cons rest)

mutual

/-- The token furthest to the right whose kind is wanted.  A parenthesis group
that is not wanted itself is searched inside, and other groups are not. -/
def lastNested? (wanted : TokenKind → Bool) : List Token → Option Token
  | [] => none
  | token :: rest =>
    match lastNested? wanted rest with
    | some found => some found
    | none =>
      if wanted token.kind then some token
      else if token.kind = .group .round then token.lastInside? wanted
      else none

def lastInside? (wanted : TokenKind → Bool) : Token → Option Token
  | ⟨_, _, _, _, _, nested⟩ => lastNested? wanted nested

end

end Token

end DeclScan
