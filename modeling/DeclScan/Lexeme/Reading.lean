import DeclScan.Lexeme.Fault
import DeclScan.Lexeme.Rule

/-!
# Reading a text

Reading repeats the longest match from the front of the text to its end.
Blanks leave no lexeme.  The first fault ends the reading, and so does a
character that no rule takes.
-/

set_option autoImplicit false

namespace DeclScan

namespace Lexeme

def readFrom (offset : Nat) : List Char → Except LexFault (List Lexeme)
  | [] => .ok []
  | char :: rest =>
    match Rule.longest? char rest with
    | none => .error (.ofText offset [char])
    | some (reading, length) =>
      let taken := char :: rest.take length
      let next := offset + byteLength taken
      match reading with
      | .fault => .error (.ofText offset taken)
      | .blank => readFrom next (rest.drop length)
      | .lexeme kind =>
        match readFrom next (rest.drop length) with
        | .ok lexemes =>
          .ok (⟨kind, String.ofList taken, .ofLength offset (byteLength taken)⟩ :: lexemes)
        | .error fault => .error fault
termination_by text => text.length
decreasing_by all_goals simp only [List.length_cons, List.length_drop]; omega

end Lexeme

/-- The lexemes of the text, or the first place where it cannot be read. -/
def lex (source : String) : Except LexFault (List Lexeme) := Lexeme.readFrom 0 source.toList

end DeclScan
