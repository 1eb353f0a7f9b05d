import DeclScan.Declarator.NameSite
import DeclScan.Declarator.Qualification

/-!
# Declarators

A declarator is found from the token that ends its lead-in: the name stands
there, its qualifiers precede it, and a token that ends the type precedes
these.  Once it is found, the names of the qualifiers are no longer live.
Commas separate the declarators of a statement.
-/

set_option autoImplicit false

namespace DeclScan

structure Declarator where
  site : NameSite
  qualification : Qualification

namespace Declarator

def find? (file : SourceFile) (entry : ScopeKind) (passed ahead : List Token) :
    Option Declarator :=
  match leadIn? passed ahead with
  | none => none
  | some lead =>
    match lead.nameSite? file entry with
    | none => none
    | some site =>
      match qualification? site.before with
      | none => none
      | some qualification => some ⟨site, qualification⟩

def name (declarator : Declarator) : Token := declarator.site.name

def qualifiers (declarator : Declarator) : List Token :=
  declarator.qualification.qualifiers.map Qualifier.name

def ahead (declarator : Declarator) : List Token := declarator.site.ahead

/-- What stays live up to the holder of the name, the nearest token first. -/
def settled (declarator : Declarator) : List Token :=
  declarator.site.holder :: declarator.qualification.settled

def tokens (declarator : Declarator) : List Token :=
  declarator.qualification.tokens.reverse ++ declarator.site.holder :: declarator.ahead

def live (declarator : Declarator) : List Token :=
  declarator.settled.reverse ++ declarator.ahead

variable {file : SourceFile} {entry : ScopeKind} {passed ahead : List Token}
  {declarator : Declarator}

theorem find?_eq_some_iff : find? file entry passed ahead = some declarator ↔
    ∃ lead, leadIn? passed ahead = some lead ∧
      lead.nameSite? file entry = some declarator.site ∧
      qualification? declarator.site.before = some declarator.qualification := by
  constructor
  · intro found
    unfold find? at found
    split at found
    · cases found
    · rename_i lead passedLead
      split at found
      · cases found
      · rename_i site named
        split at found
        · cases found
        · rename_i qualification qualified
          obtain rfl := Option.some.inj found
          exact ⟨lead, passedLead, named, qualified⟩
  · rintro ⟨lead, passedLead, named, qualified⟩
    simp [find?, passedLead, named, qualified]

theorem tokens_of_find? (found : find? file entry passed ahead = some declarator) :
    declarator.tokens = passed.reverse ++ ahead := by
  obtain ⟨lead, passedLead, named, qualified⟩ := find?_eq_some_iff.1 found
  rw [← tokens_of_leadIn? passedLead, ← LeadIn.tokens_of_nameSite? named, tokens,
    tokens_of_qualification? qualified]
  rfl

theorem length_of_find? (found : find? file entry passed ahead = some declarator) :
    declarator.ahead.length ≤ ahead.length := by
  obtain ⟨lead, passedLead, named, _⟩ := find?_eq_some_iff.1 found
  have := length_of_leadIn? passedLead
  have := LeadIn.length_of_nameSite? named
  simp only [Declarator.ahead]
  omega

end Declarator

def nextDeclarator? (passed : List Token) : List Token → Option (List Token × List Token)
  | [] => none
  | token :: rest =>
    match token.kind with
    | .punct .comma => some (token :: passed, rest)
    | .punct .semicolon | .opening .curly => none
    | _ => nextDeclarator? (token :: passed) rest

/-- The next declarator starts behind a comma, and no token is lost. -/
theorem nextDeclarator?_split {passed ahead nearer rest : List Token}
    (found : nextDeclarator? passed ahead = some (nearer, rest)) :
    ∃ between comma, comma.kind = .punct .comma ∧ ahead = between ++ comma :: rest ∧
      nearer = comma :: (between.reverse ++ passed) := by
  induction ahead generalizing passed with
  | nil => cases found
  | cons token tail ih =>
    unfold nextDeclarator? at found
    split at found
    · rename_i isComma
      obtain ⟨rfl, rfl⟩ := Prod.mk.inj (Option.some.inj found)
      exact ⟨[], token, isComma, rfl, rfl⟩
    · cases found
    · cases found
    · obtain ⟨between, comma, isComma, rfl, rfl⟩ := ih found
      exact ⟨token :: between, comma, isComma, rfl, by simp⟩

theorem length_of_nextDeclarator? {passed ahead nearer rest : List Token}
    (found : nextDeclarator? passed ahead = some (nearer, rest)) :
    rest.length < ahead.length := by
  obtain ⟨between, comma, _, rfl, _⟩ := nextDeclarator?_split found
  simp only [List.length_append, List.length_cons]
  omega

end DeclScan
