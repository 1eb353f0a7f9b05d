import DeclScan.Text.GraphemeExtend
import DeclScan.Text.Unprintable

/-!
# Quoted text

A quoted text stands between double quotes.  A quote, a backslash, a tab, a
line feed, a carriage return and the null character have short escapes; other
characters that would not show by themselves are written with their code
point in lower-case hexadecimal.
-/

set_option autoImplicit false

namespace DeclScan

namespace Quoted

/-- The code point between braces, without leading zeros. -/
def codePointEscape (char : Char) : List Char :=
  ['\\', 'u', '\x7b'] ++ Nat.toDigits 16 char.toNat ++ ['\x7d']

def encodeChar (char : Char) : List Char :=
  if char = '\x00' then ['\\', '0']
  else if char = '\t' then ['\\', 't']
  else if char = '\r' then ['\\', 'r']
  else if char = '\n' then ['\\', 'n']
  else if char = '\\' then ['\\', '\\']
  else if char = '"' then ['\\', '"']
  else if extendsGrapheme char || !isPrintable char then codePointEscape char
  else [char]

def encode (text : List Char) : List Char := '"' :: text.flatMap encodeChar ++ ['"']

end Quoted

def quoted (text : String) : String := String.ofList (Quoted.encode text.toList)

end DeclScan
