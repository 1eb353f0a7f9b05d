import DeclScan.AngleRun

/-!
# Lead-ins

The lead-in of a declarator runs to the first notable token.  A place in the
live tokens is given by the tokens that were passed, the nearest one first, and
those ahead; passing a lead-in keeps all of them in order.
-/

set_option autoImplicit false

namespace DeclScan

/-- What ends the lead-in of a declarator. -/
def TokenKind.isNotable : TokenKind → Bool
  | .punct .colon | .punct .assign | .punct .comma | .punct .semicolon => true
  | .group .round | .group .square | .opening .curly => true
  | _ => false

/-- What no declaration holds before the token that ends the lead-in. -/
def TokenKind.isDisqualifying : TokenKind → Bool
  | .punct .other | .punct .doubleAmpersand | .punct .arrow | .punct .ellipsis => true
  | .group .curly | .group .angle | .string | .character => true
  | kind => kind.isUnmatchedCloser

structure LeadIn where
  passed : List Token
  notable : Token
  after : List Token

def LeadIn.tokens (lead : LeadIn) : List Token :=
  lead.passed.reverse ++ lead.notable :: lead.after

/-- Passes the lead-in.  Angle runs belong to it as a whole. -/
def leadIn? (passed : List Token) : List Token → Option LeadIn
  | [] => none
  | token :: rest =>
    if token.kind.isNotable then some ⟨passed, token, rest⟩
    else if token.kind = .opening .angle then
      match AngleRun.length? 0 rest with
      | some length => leadIn? ((rest.take length).reverse ++ token :: passed) (rest.drop length)
      | none => none
    else if token.kind.isDisqualifying then none
    else leadIn? (token :: passed) rest
termination_by tokens => tokens.length
decreasing_by all_goals simp only [List.length_cons, List.length_drop]; omega

theorem tokens_of_leadIn? {passed ahead : List Token} {lead : LeadIn}
    (found : leadIn? passed ahead = some lead) : lead.tokens = passed.reverse ++ ahead := by
  fun_induction leadIn? passed ahead with
  | case1 => cases found
  | case2 passed token rest notable =>
    obtain rfl := Option.some.inj found
    rfl
  | case3 passed token rest _ _ length _ ih =>
    rw [ih found]
    simp [List.take_append_drop]
  | case4 => cases found
  | case5 => cases found
  | case6 passed token rest _ _ _ ih =>
    rw [ih found]
    simp

theorem length_of_leadIn? {passed ahead : List Token} {lead : LeadIn}
    (found : leadIn? passed ahead = some lead) : lead.after.length < ahead.length := by
  fun_induction leadIn? passed ahead with
  | case1 => cases found
  | case2 passed token rest notable =>
    obtain rfl := Option.some.inj found
    simp
  | case3 passed token rest _ _ length _ ih =>
    have := ih found
    simp only [List.length_cons, List.length_drop] at this ⊢
    omega
  | case4 => cases found
  | case5 => cases found
  | case6 passed token rest _ _ _ ih =>
    have := ih found
    simp only [List.length_cons]
    omega

end DeclScan
