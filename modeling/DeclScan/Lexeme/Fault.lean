import DeclScan.Text.Quoted
import DeclScan.Text.Span

/-!
# Where lexing cannot continue

A literal whose end is missing is told from all other unexpected input by the
quote that the offending text starts with.  A literal behind an encoding does
not start with its quote, so it counts as unexpected input.
-/

set_option autoImplicit false

namespace DeclScan

inductive LiteralKind where
  | string
  | character
deriving DecidableEq, Repr

def LiteralKind.name : LiteralKind → String
  | .string => "string"
  | .character => "character"

inductive LexFault where
  | unterminated (literal : LiteralKind) (span : Span)
  | unexpected (text : String) (span : Span)
deriving DecidableEq, Repr

namespace LexFault

def ofText (offset : Nat) (text : List Char) : LexFault :=
  let span := Span.ofLength offset (byteLength text)
  match text with
  | '"' :: _ => unterminated .string span
  | '\'' :: _ => unterminated .character span
  | _ => unexpected (String.ofList text) span

def span : LexFault → Span
  | unterminated _ span | unexpected _ span => span

def message : LexFault → String
  | unterminated literal span =>
    "unterminated " ++ literal.name ++ " literal at offset " ++ toString span.start
  | unexpected text span =>
    "unexpected input " ++ quoted text ++ " at offset " ++ toString span.start

end LexFault

end DeclScan
