import DeclScan.Token

/-!
# Qualified names

Before a name may stand qualifiers, each of them an identifier with a pair of
colons behind it.  The token before the outermost one ends the type.
-/

set_option autoImplicit false

namespace DeclScan

structure Qualifier where
  name : Token
  colons : Token

/-- The qualifiers before a name with the nearest one first, the token that
ends the type, and what precedes that token with the nearest one first. -/
structure Qualification where
  qualifiers : List Qualifier
  typeEnd : Token
  before : List Token

namespace Qualification

def tokens (qualification : Qualification) : List Token :=
  qualification.qualifiers.flatMap (fun qualifier => [qualifier.colons, qualifier.name]) ++
    qualification.typeEnd :: qualification.before

def settled (qualification : Qualification) : List Token :=
  qualification.qualifiers.map Qualifier.colons ++
    qualification.typeEnd :: qualification.before

end Qualification

/-- Splits the tokens before a name.  Each pair of colons needs an identifier
before it, and a token that ends the type has to precede all qualifiers. -/
def qualification? : List Token → Option Qualification
  | [] => none
  | [token] => if token.kind = .punct .doubleColon then none else some ⟨[], token, []⟩
  | token :: name :: before =>
    if token.kind = .punct .doubleColon then
      if name.kind = .identifier then
        (qualification? before).map fun outer =>
          { outer with qualifiers := ⟨name, token⟩ :: outer.qualifiers }
      else none
    else some ⟨[], token, name :: before⟩

theorem tokens_of_qualification? {before : List Token} {qualification : Qualification}
    (found : qualification? before = some qualification) : qualification.tokens = before := by
  fun_induction qualification? before generalizing qualification with
  | case1 => cases found
  | case2 => cases found
  | case3 =>
    obtain rfl := Option.some.inj found
    rfl
  | case4 token name before _ _ ih =>
    obtain ⟨outer, outerFound, rfl⟩ := Option.map_eq_some_iff.1 found
    have outerTokens := ih outerFound
    simp only [Qualification.tokens] at outerTokens ⊢
    simp [outerTokens]
  | case5 => cases found
  | case6 =>
    obtain rfl := Option.some.inj found
    rfl

/-- Only identifiers with a pair of colons behind them qualify a name. -/
theorem kinds_of_qualification? {before : List Token} {qualification : Qualification}
    (found : qualification? before = some qualification) :
    ∀ qualifier ∈ qualification.qualifiers,
      qualifier.name.kind = .identifier ∧ qualifier.colons.kind = .punct .doubleColon := by
  fun_induction qualification? before generalizing qualification with
  | case1 => cases found
  | case2 => cases found
  | case3 =>
    obtain rfl := Option.some.inj found
    simp
  | case4 token name before isColons isName ih =>
    obtain ⟨outer, outerFound, rfl⟩ := Option.map_eq_some_iff.1 found
    intro qualifier member
    rcases List.mem_cons.1 member with rfl | member
    · exact ⟨isName, isColons⟩
    · exact ih outerFound qualifier member
  | case5 => cases found
  | case6 =>
    obtain rfl := Option.some.inj found
    simp

theorem typeEnd_of_qualification? {before : List Token} {qualification : Qualification}
    (found : qualification? before = some qualification) :
    qualification.typeEnd.kind ≠ .punct .doubleColon := by
  fun_induction qualification? before generalizing qualification with
  | case1 => cases found
  | case2 => cases found
  | case3 token other =>
    obtain rfl := Option.some.inj found
    exact other
  | case4 token name before _ _ ih =>
    obtain ⟨outer, outerFound, rfl⟩ := Option.map_eq_some_iff.1 found
    have outerEnd := ih outerFound
    exact outerEnd
  | case5 => cases found
  | case6 token name before other =>
    obtain rfl := Option.some.inj found
    exact other

end DeclScan
