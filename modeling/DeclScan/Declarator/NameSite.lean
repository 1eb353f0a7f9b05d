import DeclScan.Declarator.LeadIn
import DeclScan.Scope
import DeclScan.Signature
import DeclScan.SourceFile

/-!
# Where names stand

The name of a declarator is the identifier before the token that ends the
lead-in.  For a function pointer that token is a parenthesis group, a parameter
list follows it, and the name is nested in the group.
-/

set_option autoImplicit false

namespace DeclScan

/-- The name, the live token that holds it (the name itself or the group it is
nested in), the tokens before the holder with the nearest one first, and the
tokens ahead. -/
structure NameSite where
  name : Token
  holder : Token
  before : List Token
  ahead : List Token

def NameSite.tokens (site : NameSite) : List Token :=
  site.before.reverse ++ site.holder :: site.ahead

def pointerName? (group : Token) (after : List Token) : Option Token :=
  match after with
  | [] => none
  | next :: _ =>
    if next.kind = .group .round ∧ Signature.looksLikeParameters next then
      Token.lastNested? TokenKind.isIdentifier group.nested
    else none

def allowsArguments (file : SourceFile) (entry : ScopeKind) : Bool :=
  file.language.isCpp && (entry = .inNamespace || entry = .inFunction)

/-- A parenthesis group behind a name declares a variable only if it holds
constructor arguments, and only where these are allowed. -/
def LeadIn.nameSite? (file : SourceFile) (entry : ScopeKind) (lead : LeadIn) : Option NameSite :=
  match lead.passed with
  | [] => none
  | previous :: before =>
    if lead.notable.kind = .group .round then
      match pointerName? lead.notable lead.after with
      | some name => some ⟨name, lead.notable, lead.passed, lead.after⟩
      | none =>
        if previous.kind = .identifier ∧ allowsArguments file entry ∧
            Signature.looksLikeArguments lead.notable then
          some ⟨previous, previous, before, lead.notable :: lead.after⟩
        else none
    else if previous.kind = .identifier then
      some ⟨previous, previous, before, lead.notable :: lead.after⟩
    else none

namespace LeadIn

variable {file : SourceFile} {entry : ScopeKind} {lead : LeadIn} {site : NameSite}

/-- The name is held by the last token passed, or by the token that ends the
lead-in. -/
theorem nameSite?_cases (found : lead.nameSite? file entry = some site) :
    lead.passed = site.holder :: site.before ∧ site.ahead = lead.notable :: lead.after ∨
      lead.passed = site.before ∧ site.holder = lead.notable ∧ site.ahead = lead.after := by
  unfold nameSite? at found
  split at found
  · cases found
  · rename_i previous before passed
    split at found
    · split at found
      · obtain rfl := Option.some.inj found
        exact .inr ⟨rfl, rfl, rfl⟩
      · split at found
        · obtain rfl := Option.some.inj found
          exact .inl ⟨passed, rfl⟩
        · cases found
    · split at found
      · obtain rfl := Option.some.inj found
        exact .inl ⟨passed, rfl⟩
      · cases found

theorem tokens_of_nameSite? (found : lead.nameSite? file entry = some site) :
    site.tokens = lead.tokens := by
  rcases nameSite?_cases found with ⟨passed, ahead⟩ | ⟨passed, holder, ahead⟩
  · simp [NameSite.tokens, LeadIn.tokens, passed, ahead]
  · simp [NameSite.tokens, LeadIn.tokens, passed, holder, ahead]

theorem length_of_nameSite? (found : lead.nameSite? file entry = some site) :
    site.ahead.length ≤ lead.after.length + 1 := by
  rcases nameSite?_cases found with ⟨_, ahead⟩ | ⟨_, _, ahead⟩
  · simp [ahead]
  · simp [ahead]

end LeadIn

end DeclScan
