import DeclScan.Declarator
import DeclScan.Tag

/-!
# Declarations

Reading a statement takes one declarator after the other and ends at the first
shape it does not recognize; what was read before stands.  The result holds the
declared variables in order and the tokens that stay live, which are all but
the qualifiers of these variables.
-/

set_option autoImplicit false

namespace DeclScan

/-- A declared variable: the token that names it, the qualifiers of the name
with the nearest one first, and the type it refers to. -/
structure Variable where
  name : Token
  qualifiers : List Token
  typeReference : Option TypeReference

structure Declaration where
  declared : List Variable
  live : List Token

namespace Declaration

def endsType : TokenKind → Bool
  | .identifier | .keyword _ | .closing .angle | .punct .star | .punct .ampersand => true
  | _ => false

/-- The token that ends the type: the one known from the first declarator, or
else the one before this declarator if a type can end in it. -/
def typeEnd? (known : Option Token) (declarator : Declarator) : Option Token :=
  match known with
  | some token => some token
  | none =>
    let token := declarator.qualification.typeEnd
    if endsType token.kind then some token else none

/-- Only a statement of four live tokens refers to a type: a keyword that
introduces types and the name behind it. -/
def typeReference? (live : List Token) (typeEnd : Token) : Option TypeReference :=
  if live.length = 4 ∧ typeEnd.kind = .identifier then
    match live.findIdx? fun token => token.id = typeEnd.id with
    | some (place + 1) =>
      match live[place]? with
      | some token =>
        match token.kind with
        | .keyword keyword =>
          if keyword.introducesType then some ⟨token.text, typeEnd.text⟩ else none
        | _ => none
      | none => none
    | _ => none
  else none

def readFrom (file : SourceFile) (entry : ScopeKind) (known : Option Token)
    (passed ahead : List Token) : Declaration :=
  match _found : Declarator.find? file entry passed ahead with
  | none => ⟨[], passed.reverse ++ ahead⟩
  | some declarator =>
    match typeEnd? known declarator with
    | none => ⟨[], passed.reverse ++ ahead⟩
    | some typeEnd =>
      let first : Variable :=
        ⟨declarator.name, declarator.qualifiers, typeReference? declarator.live typeEnd⟩
      match _next : nextDeclarator? declarator.settled declarator.ahead with
      | none => ⟨[first], declarator.live⟩
      | some (passed, ahead) =>
        let others := readFrom file entry (some typeEnd) passed ahead
        ⟨first :: others.declared, others.live⟩
termination_by ahead.length
decreasing_by
  have := Declarator.length_of_find? _found
  have := length_of_nextDeclarator? _next
  omega

theorem readFrom_eq (file : SourceFile) (entry : ScopeKind) (known : Option Token)
    (passed ahead : List Token) :
    readFrom file entry known passed ahead =
      match Declarator.find? file entry passed ahead with
      | none => ⟨[], passed.reverse ++ ahead⟩
      | some declarator =>
        match typeEnd? known declarator with
        | none => ⟨[], passed.reverse ++ ahead⟩
        | some typeEnd =>
          let first : Variable :=
            ⟨declarator.name, declarator.qualifiers, typeReference? declarator.live typeEnd⟩
          match nextDeclarator? declarator.settled declarator.ahead with
          | none => ⟨[first], declarator.live⟩
          | some (passed, ahead) =>
            let others := readFrom file entry (some typeEnd) passed ahead
            ⟨first :: others.declared, others.live⟩ := by
  rw [readFrom]
  split
  · rename_i none
    simp only [none]
  · rename_i declarator found
    simp only [found]
    split
    · rfl
    · split
      · rename_i last
        simp only [last]
      · rename_i following
        simp only [following]

def read (file : SourceFile) (entry : ScopeKind) (live : List Token) : Declaration :=
  match live with
  | [] => ⟨[], []⟩
  | first :: _ =>
    if first.kind.isWord then readFrom file entry none [] live else ⟨[], live⟩

end Declaration

end DeclScan
