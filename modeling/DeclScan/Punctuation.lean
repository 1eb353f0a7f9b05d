/-!
# Brackets and punctuators

Four bracket pairs may enclose a group.  Angle brackets are also comparison
operators, so they are only paired on request.  A punctuator has a value of
its own where the shape of a declaration depends on it; all other operators
are `other`.
-/

set_option autoImplicit false

namespace DeclScan

inductive Bracket where
  | round
  | square
  | curly
  | angle
deriving DecidableEq, Repr

namespace Bracket

def all : List Bracket := [round, square, curly, angle]

def opener : Bracket → Char
  | round => '('
  | square => '['
  | curly => '{'
  | angle => '<'

def closer : Bracket → Char
  | round => ')'
  | square => ']'
  | curly => '}'
  | angle => '>'

end Bracket

inductive Punctuator where
  | star
  | ampersand
  | doubleAmpersand
  | arrow
  | colon
  | doubleColon
  | comma
  | semicolon
  | assign
  | ellipsis
  | other
deriving DecidableEq, Repr

namespace Punctuator

def spellings : Punctuator → List String
  | star => ["*"]
  | ampersand => ["&"]
  | doubleAmpersand => ["&&"]
  | arrow => ["->"]
  | colon => [":"]
  | doubleColon => ["::"]
  | comma => [","]
  | semicolon => [";"]
  | assign => ["="]
  | ellipsis => ["..."]
  | other => ["->*", ".*", ".", "++", "--", "+", "-", "/", "%", "^", "|", "||", "~", "!", "?",
      "==", "!=", "<=", ">=", "<=>", "<<", "<<=", ">>=", "+=", "-=", "*=", "/=", "%=", "&=",
      "|=", "^="]

def all : List Punctuator :=
  [star, ampersand, doubleAmpersand, arrow, colon, doubleColon, comma, semicolon, assign,
    ellipsis, other]

end Punctuator

end DeclScan
