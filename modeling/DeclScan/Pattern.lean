/-!
# Regular patterns

A pattern stands for a set of character sequences.  Reading one character
turns a pattern into its derivative, the pattern of what may follow; the
longest match keeps taking derivatives until nothing can follow any more.
-/

set_option autoImplicit false

namespace DeclScan

/-- The characters in one of the ranges or, if `negated`, all others. -/
structure CharSet where
  ranges : List (Char × Char)
  negated : Bool := false
deriving DecidableEq, Repr

namespace CharSet

def contains (set : CharSet) (char : Char) : Bool :=
  set.ranges.any (fun range => range.1 ≤ char && char ≤ range.2) != set.negated

def single (char : Char) : CharSet := ⟨[(char, char)], false⟩

def ofChars (chars : List Char) : CharSet := ⟨chars.map fun char => (char, char), false⟩

def except (chars : List Char) : CharSet := ⟨chars.map fun char => (char, char), true⟩

end CharSet

inductive Pattern where
  | never
  | nothing
  | oneOf (set : CharSet)
  | seq (first second : Pattern)
  | either (left right : Pattern)
  | many (body : Pattern)
deriving DecidableEq, Repr

namespace Pattern

def chars : List Char → Pattern
  | [] => nothing
  | [char] => oneOf (.single char)
  | char :: rest => seq (oneOf (.single char)) (chars rest)

def exactly (text : String) : Pattern := chars text.toList

def anyOf : List Pattern → Pattern
  | [] => never
  | [pattern] => pattern
  | pattern :: rest => either pattern (anyOf rest)

def inOrder : List Pattern → Pattern
  | [] => nothing
  | [pattern] => pattern
  | pattern :: rest => seq pattern (inOrder rest)

def optional (pattern : Pattern) : Pattern := either pattern nothing

def oneOrMore (pattern : Pattern) : Pattern := seq pattern (many pattern)

def matchesNothing : Pattern → Bool
  | never | oneOf _ => false
  | nothing | many _ => true
  | seq first second => first.matchesNothing && second.matchesNothing
  | either left right => left.matchesNothing || right.matchesNothing

def sequence : Pattern → Pattern → Pattern
  | never, _ => never
  | nothing, second => second
  | first, second => seq first second

def offers : Pattern → Pattern → Bool
  | either left right, pattern => left.offers pattern || right.offers pattern
  | alternative, pattern => alternative = pattern

/-- A choice in which a side that can never match, or that is offered already,
is dropped.  Without the latter a choice would grow with the text. -/
def choice : Pattern → Pattern → Pattern
  | never, right => right
  | left, never => left
  | left, right => if left.offers right then left else either left right

/-- What may follow `char` in a sequence that the pattern holds. -/
def derivative (char : Char) : Pattern → Pattern
  | never | nothing => never
  | oneOf set => if set.contains char then nothing else never
  | seq first second =>
    if first.matchesNothing then
      choice (sequence (first.derivative char) second) (second.derivative char)
    else
      sequence (first.derivative char) second
  | either left right => choice (left.derivative char) (right.derivative char)
  | many body => sequence (body.derivative char) (many body)

def longest? : Pattern → List Char → Option Nat
  | never, _ => none
  | pattern, [] => if pattern.matchesNothing then some 0 else none
  | pattern, char :: rest =>
    match (pattern.derivative char).longest? rest with
    | some length => some (length + 1)
    | none => if pattern.matchesNothing then some 0 else none

end Pattern

end DeclScan
