import DeclScan.Lexeme.Kind
import DeclScan.Pattern

/-!
# Lexical rules

What the front of a text is read as is settled by the rule that takes most of
it.  Literals and block comments have a second rule, for the same opening and
contents without the end.  A complete one takes one character more than the
incomplete one, so that rule decides only where the end is missing; it then
takes everything that belongs to the broken literal or comment.
-/

set_option autoImplicit false

namespace DeclScan

inductive Reading where
  | lexeme (kind : LexemeKind)
  | blank
  | fault
deriving DecidableEq, Repr

structure Rule where
  reading : Reading
  pattern : Pattern
deriving DecidableEq, Repr

namespace Rule

open Pattern

def digit : CharSet := ⟨[('0', '9')], false⟩
def digitOrSeparator : CharSet := ⟨[('0', '9'), ('\'', '\'')], false⟩
def hexDigitOrSeparator : CharSet :=
  ⟨[('0', '9'), ('a', 'f'), ('A', 'F'), ('\'', '\'')], false⟩
def letterOrUnderscore : CharSet := ⟨[('a', 'z'), ('A', 'Z'), ('_', '_')], false⟩
def wordStart : CharSet := ⟨[('A', 'Z'), ('a', 'z'), ('_', '_'), ('$', '$')], false⟩
def wordPart : CharSet :=
  ⟨[('A', 'Z'), ('a', 'z'), ('0', '9'), ('_', '_'), ('$', '$')], false⟩
def blankChar : CharSet := .ofChars [' ', '\t', '\r', '\n', '\x0c']
def notNewline : CharSet := .except ['\n']

def whitespace : Pattern := oneOrMore (oneOf blankChar)

def lineContinuation : Pattern :=
  inOrder [exactly "\\", optional (exactly "\r"), exactly "\n"]

def lineComment : Pattern := seq (exactly "//") (many (oneOf notNewline))

/-- Text without a star, then stars, over and over: what precedes the slash
that ends a block comment. -/
def blockComment : Pattern :=
  inOrder [exactly "/*", many (oneOf (.except ['*'])), oneOrMore (exactly "*"),
    many (inOrder [oneOf (.except ['/', '*']), many (oneOf (.except ['*'])),
      oneOrMore (exactly "*")]),
    exactly "/"]

def openBlockComment : Pattern :=
  inOrder [exactly "/*", many (oneOf (.except ['*'])),
    many (inOrder [oneOrMore (exactly "*"), oneOf (.except ['/', '*']),
      many (oneOf (.except ['*']))]),
    many (exactly "*")]

def word : Pattern := seq (oneOf wordStart) (many (oneOf wordPart))

def exponent : Pattern :=
  inOrder [oneOf (.ofChars ['e', 'E']), optional (oneOf (.ofChars ['+', '-'])),
    oneOrMore (oneOf digit)]

def numberSuffix : Pattern := many (oneOf letterOrUnderscore)

def hexNumber : Pattern :=
  inOrder [exactly "0", oneOf (.ofChars ['x', 'X']), oneOrMore (oneOf hexDigitOrSeparator),
    numberSuffix]

def decimalNumber : Pattern :=
  inOrder [oneOf digit, many (oneOf digitOrSeparator),
    optional (seq (exactly ".") (many (oneOf digitOrSeparator))), optional exponent,
    numberSuffix]

def fractionNumber : Pattern :=
  inOrder [exactly ".", oneOrMore (oneOf digit), optional exponent, numberSuffix]

def number : Pattern := anyOf [hexNumber, decimalNumber, fractionNumber]

def encoding : Pattern := anyOf [exactly "u8", exactly "u", exactly "U", exactly "L"]

def literalItem (quote : Char) : Pattern :=
  either (oneOf (.except [quote, '\\', '\n'])) (seq (exactly "\\") (oneOf notNewline))

def openString : Pattern :=
  inOrder [optional encoding, exactly "\"", many (literalItem '"')]

def string : Pattern :=
  inOrder [optional encoding, exactly "\"", many (literalItem '"'), exactly "\""]

/-- After an encoding, a quote opens a literal only if something follows it. -/
def openCharacter : Pattern :=
  either (seq (exactly "'") (many (literalItem '\'')))
    (inOrder [encoding, exactly "'", oneOrMore (literalItem '\'')])

def character : Pattern :=
  inOrder [optional encoding, exactly "'", oneOrMore (literalItem '\''), exactly "'"]

def brackets : List Rule :=
  Bracket.all.flatMap fun bracket =>
    [⟨.lexeme (.opening bracket), chars [bracket.opener]⟩,
      ⟨.lexeme (.closing bracket), chars [bracket.closer]⟩]

def punctuators : List Rule :=
  Punctuator.all.flatMap fun punctuator =>
    punctuator.spellings.map fun spelling => ⟨.lexeme (.punct punctuator), exactly spelling⟩

def all : List Rule := [
  ⟨.blank, whitespace⟩,
  ⟨.blank, lineContinuation⟩,
  ⟨.blank, lineComment⟩,
  ⟨.blank, blockComment⟩,
  ⟨.fault, openBlockComment⟩,
  ⟨.lexeme .word, word⟩,
  ⟨.lexeme .number, number⟩,
  ⟨.lexeme .string, string⟩,
  ⟨.fault, openString⟩,
  ⟨.lexeme .character, character⟩,
  ⟨.fault, openCharacter⟩] ++ brackets ++ punctuators

/-- How many characters behind the first one the rule takes at most, if it
takes the first one. -/
def reach? (rule : Rule) (char : Char) (rest : List Char) : Option Nat :=
  (rule.pattern.derivative char).longest? rest

/-- The reading of the first rule that takes most, and how many characters
behind the first one it takes. -/
def longestOf (char : Char) (rest : List Char) : List Rule → Option (Reading × Nat)
  | [] => none
  | rule :: rules =>
    match rule.reach? char rest, longestOf char rest rules with
    | none, best => best
    | some length, none => some (rule.reading, length)
    | some length, some (reading, best) =>
      if best ≤ length then some (rule.reading, length) else some (reading, best)

def longest? (char : Char) (rest : List Char) : Option (Reading × Nat) :=
  longestOf char rest all

end Rule

end DeclScan
