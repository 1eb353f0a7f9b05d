import DeclScan.Keyword
import DeclScan.Lexeme.Kind

/-!
# Token kinds

Tokens are lexemes whose words have been told apart, and groups: regions
between a bracket pair that count as one token.
-/

set_option autoImplicit false

namespace DeclScan

inductive TokenKind where
  | identifier
  | keyword (keyword : Keyword)
  | number
  | string
  | character
  | opening (bracket : Bracket)
  | closing (bracket : Bracket)
  | punct (punctuator : Punctuator)
  | group (bracket : Bracket)
deriving DecidableEq, Repr

namespace TokenKind

def isIdentifier (kind : TokenKind) : Bool := kind = identifier

def isKeyword : TokenKind → Bool
  | keyword _ => true
  | _ => false

def isWord (kind : TokenKind) : Bool := kind.isIdentifier || kind.isKeyword

def isConstant : TokenKind → Bool
  | number | string | character => true
  | _ => false

/-- A closing bracket that folding left alone, because nothing it could close
was open. -/
def isUnmatchedCloser : TokenKind → Bool
  | closing .round | closing .square | closing .curly => true
  | _ => false

def ofLexeme (language : Language) (lexeme : Lexeme) : TokenKind :=
  match lexeme.kind with
  | .word =>
    match Keyword.ofWord? lexeme.text language with
    | some reserved => keyword reserved
    | none => identifier
  | .number => number
  | .string => string
  | .character => character
  | .opening bracket => opening bracket
  | .closing bracket => closing bracket
  | .punct punctuator => punct punctuator

end TokenKind

end DeclScan
