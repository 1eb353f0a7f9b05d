import DeclScan.Punctuation
import DeclScan.Text.Span

/-!
# Lexemes

A lexeme is one indivisible piece of a statement's text.  Words are not told
apart here: which of them are reserved depends on the language.
-/

set_option autoImplicit false

namespace DeclScan

inductive LexemeKind where
  | word
  | number
  | string
  | character
  | opening (bracket : Bracket)
  | closing (bracket : Bracket)
  | punct (punctuator : Punctuator)
deriving DecidableEq, Repr

structure Lexeme where
  kind : LexemeKind
  text : String
  span : Span
deriving DecidableEq, Repr

end DeclScan
