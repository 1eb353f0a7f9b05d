import DeclScan.AngleRun

/-!
# What a parenthesis group may be

Behind a name, a parenthesis group holds either constructor arguments, so
that the name is a variable, or the parameters of a function.  Both checks
guess from the kinds of the nested tokens alone.
-/

set_option autoImplicit false

namespace DeclScan

namespace Signature

/-- Whether two tokens behind a parenthesis look like a type and a name, or a
type and a declarator: the start of a parameter. -/
def startsParameter (first second : TokenKind) : Bool :=
  match first, second with
  | .keyword _, .keyword _ | .keyword _, .identifier => true
  | .keyword _, .punct .star | .keyword _, .punct .ampersand => true
  | .keyword _, .punct .doubleAmpersand => true
  | .identifier, .keyword _ | .identifier, .identifier => true
  | _, _ => false

/-- An empty pair of parentheses declares a function, so it holds no
arguments. -/
def looksLikeArguments (group : Token) : Bool :=
  match group.nested with
  | _ :: first :: second :: _ => !startsParameter first.kind second.kind
  | _ => false

def opensParameter : TokenKind → Bool
  | .identifier | .keyword _ | .punct .doubleColon => true
  | _ => false

/-- What may follow in a parameter, angle runs and default values aside. -/
def continuesParameter : TokenKind → Bool
  | .identifier | .keyword _ => true
  | .punct .star | .punct .ampersand | .punct .doubleAmpersand => true
  | .punct .doubleColon | .punct .ellipsis => true
  | .group .round | .group .square | .group .angle => true
  | _ => false

mutual

/-- A list of parameters, none of them missing.  An ellipsis is only the last
one.  An ellipsis that follows another token belongs to that parameter. -/
def parameters : List Token → Bool
  | [] => false
  | token :: rest =>
    if token.kind = .punct .ellipsis then rest.isEmpty
    else if opensParameter token.kind then parameterRest rest
    else false
termination_by tokens => tokens.length
decreasing_by simp

/-- The rest of a parameter and of the list.  A default value runs to the next
comma, whatever it holds. -/
def parameterRest : List Token → Bool
  | [] => true
  | token :: rest =>
    if token.kind = .punct .comma then parameters rest
    else if continuesParameter token.kind then parameterRest rest
    else if token.kind = .opening .angle then
      match AngleRun.length? 0 rest with
      | some length => parameterRest (rest.drop length)
      | none => false
    else if token.kind = .punct .assign then
      match rest.findIdx? fun next => next.kind = .punct .comma with
      | some place => parameters (rest.drop (place + 1))
      | none => true
    else false
termination_by tokens => tokens.length
decreasing_by all_goals simp only [List.length_cons, List.length_drop]; omega

end

def looksLikeParameters (group : Token) : Bool :=
  match group.nested with
  | _ :: inner :: rest =>
    let listed := (inner :: rest).dropLast
    listed.isEmpty || parameters listed
  | _ => false

end Signature

end DeclScan
