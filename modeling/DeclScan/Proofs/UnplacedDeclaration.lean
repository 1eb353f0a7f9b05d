import Mathlib
import DeclScan.Declaration
import DeclScan.Proofs.NestedSearch
import DeclScan.Proofs.Unplaced

/-!
# Declarations without places

Reading a declaration looks at the kinds, texts and identities of tokens, and
never at their places.  Each step of the reading is followed here with and
without places, up to `Declaration.unplaced_read`.
-/

set_option autoImplicit false

namespace DeclScan

open Token

theorem Token.findIdx?_unplaced {wanted : Token → Bool}
    (placeless : ∀ token : Token, wanted token.unplaced = wanted token) (tokens : List Token) :
    (tokens.map unplaced).findIdx? wanted = tokens.findIdx? wanted := by
  rw [List.findIdx?_map]
  simp [Function.comp_def, placeless]

@[simp] theorem AngleRun.length?_unplaced (depth : Nat) (tokens : List Token) :
    length? depth (tokens.map unplaced) = length? depth tokens := by
  induction tokens generalizing depth with
  | nil => rfl
  | cons token rest ih => simp only [List.map_cons, length?, kind_unplaced, ih]

theorem Token.lastNested?_unplaced (wanted : TokenKind → Bool) (tokens : List Token) :
    lastNested? wanted (tokens.map unplaced) = (lastNested? wanted tokens).map unplaced := by
  induction tokens using nested_induction with
  | nil => rfl
  | cons token rest inside ih =>
    rw [List.map_cons, lastNested?_cons, ih, lastNested?_cons token rest, Option.map_or,
      lastNested?_singleton, lastNested?_singleton, kind_unplaced, nested_unplaced, inside]
    congr 1
    split
    · rfl
    · split <;> rfl

namespace Signature

theorem looksLikeArguments_unplaced (group : Token) :
    looksLikeArguments group.unplaced = looksLikeArguments group := by
  unfold looksLikeArguments
  rw [nested_unplaced]
  rcases group.nested with _ | ⟨bracket, _ | ⟨first, _ | ⟨second, rest⟩⟩⟩
  all_goals simp

mutual

theorem parameters_unplaced (tokens : List Token) :
    parameters (tokens.map unplaced) = parameters tokens := by
  cases tokens with
  | nil => rfl
  | cons token rest =>
    rw [List.map_cons, parameters, parameters, kind_unplaced, List.isEmpty_map,
      parameterRest_unplaced rest]
termination_by tokens.length

theorem parameterRest_unplaced (tokens : List Token) :
    parameterRest (tokens.map unplaced) = parameterRest tokens := by
  cases tokens with
  | nil => rfl
  | cons token rest =>
    have dropped (count : Nat) : (rest.map unplaced).drop count = (rest.drop count).map unplaced :=
      List.map_drop.symm
    have nextComma : (rest.map unplaced).findIdx? (fun next => next.kind = .punct .comma) =
        rest.findIdx? fun next => next.kind = .punct .comma :=
      findIdx?_unplaced (by simp) rest
    rw [List.map_cons, parameterRest, parameterRest, kind_unplaced, AngleRun.length?_unplaced,
      nextComma, parameters_unplaced rest, parameterRest_unplaced rest]
    simp only [dropped]
    -- behind an angle run or a comma the functions go on with what is left of the list
    cases AngleRun.length? 0 rest with
    | none =>
      cases rest.findIdx? fun next => next.kind = .punct .comma with
      | none => rfl
      | some place => simp only [parameters_unplaced (rest.drop (place + 1))]
    | some length =>
      cases rest.findIdx? fun next => next.kind = .punct .comma with
      | none => simp only [parameterRest_unplaced (rest.drop length)]
      | some place =>
        simp only [parameterRest_unplaced (rest.drop length),
          parameters_unplaced (rest.drop (place + 1))]
termination_by tokens.length
decreasing_by all_goals simp only [List.length_cons, List.length_drop]; omega

end

theorem looksLikeParameters_unplaced (group : Token) :
    looksLikeParameters group.unplaced = looksLikeParameters group := by
  unfold looksLikeParameters
  rw [nested_unplaced]
  rcases group.nested with _ | ⟨bracket, _ | ⟨inner, rest⟩⟩
  · rfl
  · rfl
  · have listed : ((inner :: rest).map unplaced).dropLast =
        (inner :: rest).dropLast.map unplaced := List.map_dropLast.symm
    rw [List.map_cons] at listed
    simp only [List.map_cons, listed, List.isEmpty_map, parameters_unplaced]

end Signature

def LeadIn.unplaced (lead : LeadIn) : LeadIn :=
  ⟨lead.passed.map Token.unplaced, lead.notable.unplaced, lead.after.map Token.unplaced⟩

theorem leadIn?_unplaced (passed ahead : List Token) :
    leadIn? (passed.map unplaced) (ahead.map unplaced) =
      (leadIn? passed ahead).map LeadIn.unplaced := by
  fun_induction leadIn? passed ahead with
  | case1 => rw [List.map_nil, leadIn?, Option.map_none]
  | case2 passed token rest notable =>
    rw [List.map_cons, leadIn?, kind_unplaced, if_pos notable]
    rfl
  | case3 passed token rest plain opens length closed ih =>
    rw [List.map_cons, leadIn?, kind_unplaced, if_neg plain, if_pos opens,
      AngleRun.length?_unplaced, closed, ← ih]
    simp only [List.map_append, List.map_reverse, List.map_cons, List.map_take, List.map_drop]
  | case4 passed token rest plain opens unclosed =>
    rw [List.map_cons, leadIn?, kind_unplaced, if_neg plain, if_pos opens,
      AngleRun.length?_unplaced, unclosed]
    rfl
  | case5 passed token rest plain noOpening disqualifies =>
    rw [List.map_cons, leadIn?, kind_unplaced, if_neg plain, if_neg noOpening,
      if_pos disqualifies]
    rfl
  | case6 passed token rest plain noOpening passes ih =>
    rw [List.map_cons, leadIn?, kind_unplaced, if_neg plain, if_neg noOpening, if_neg passes,
      ← ih, List.map_cons]

def NameSite.unplaced (site : NameSite) : NameSite :=
  ⟨site.name.unplaced, site.holder.unplaced, site.before.map Token.unplaced,
    site.ahead.map Token.unplaced⟩

theorem pointerName?_unplaced (group : Token) (after : List Token) :
    pointerName? group.unplaced (after.map unplaced) =
      (pointerName? group after).map unplaced := by
  cases after with
  | nil => rfl
  | cons next rest =>
    simp only [List.map_cons, pointerName?, kind_unplaced,
      Signature.looksLikeParameters_unplaced, nested_unplaced, lastNested?_unplaced]
    split <;> rfl

theorem LeadIn.nameSite?_unplaced (file : SourceFile) (entry : ScopeKind) (lead : LeadIn) :
    lead.unplaced.nameSite? file entry = (lead.nameSite? file entry).map NameSite.unplaced := by
  obtain ⟨passed, notable, after⟩ := lead
  cases passed with
  | nil => rfl
  | cons previous before =>
    simp only [unplaced, nameSite?, List.map_cons, kind_unplaced, pointerName?_unplaced,
      Signature.looksLikeArguments_unplaced]
    by_cases isRound : notable.kind = .group .round
    · simp only [isRound, if_true]
      cases pointerName? notable after with
      | some name => rfl
      | none =>
        simp only [Option.map_none]
        split <;> rfl
    · simp only [isRound, if_false]
      split <;> rfl

def Qualifier.unplaced (qualifier : Qualifier) : Qualifier :=
  ⟨qualifier.name.unplaced, qualifier.colons.unplaced⟩

def Qualification.unplaced (qualification : Qualification) : Qualification :=
  ⟨qualification.qualifiers.map Qualifier.unplaced, qualification.typeEnd.unplaced,
    qualification.before.map Token.unplaced⟩

theorem qualification?_unplaced (before : List Token) :
    qualification? (before.map unplaced) = (qualification? before).map Qualification.unplaced := by
  fun_induction qualification? before with
  | case1 => rfl
  | case2 token isColons =>
    rw [List.map_singleton, qualification?, kind_unplaced, if_pos isColons]
    rfl
  | case3 token other =>
    rw [List.map_singleton, qualification?, kind_unplaced, if_neg other]
    rfl
  | case4 token name before isColons isName ih =>
    rw [List.map_cons, List.map_cons, qualification?, kind_unplaced, if_pos isColons,
      kind_unplaced, if_pos isName, ih, Option.map_map, Option.map_map]
    rfl
  | case5 token name before isColons noName =>
    rw [List.map_cons, List.map_cons, qualification?, kind_unplaced, if_pos isColons,
      kind_unplaced, if_neg noName]
    rfl
  | case6 token name before other =>
    rw [List.map_cons, List.map_cons, qualification?, kind_unplaced, if_neg other]
    rfl

def Declarator.unplaced (declarator : Declarator) : Declarator :=
  ⟨declarator.site.unplaced, declarator.qualification.unplaced⟩

namespace Declarator

theorem find?_unplaced (file : SourceFile) (entry : ScopeKind) (passed ahead : List Token) :
    find? file entry (passed.map Token.unplaced) (ahead.map Token.unplaced) =
      (find? file entry passed ahead).map unplaced := by
  unfold find?
  rw [leadIn?_unplaced]
  cases leadIn? passed ahead with
  | none => rfl
  | some lead =>
    simp only [Option.map_some, LeadIn.nameSite?_unplaced]
    cases lead.nameSite? file entry with
    | none => rfl
    | some site =>
      have before : site.unplaced.before = site.before.map Token.unplaced := rfl
      simp only [Option.map_some, before, qualification?_unplaced]
      cases qualification? site.before with
      | none => rfl
      | some qualification => rfl

theorem settled_unplaced (declarator : Declarator) :
    declarator.unplaced.settled = declarator.settled.map Token.unplaced := by
  simp [settled, Qualification.settled, unplaced, NameSite.unplaced, Qualification.unplaced,
    Qualifier.unplaced, Function.comp_def]

theorem qualifiers_unplaced (declarator : Declarator) :
    declarator.unplaced.qualifiers = declarator.qualifiers.map Token.unplaced := by
  simp [qualifiers, unplaced, Qualification.unplaced, Qualifier.unplaced, Function.comp_def]

theorem live_unplaced (declarator : Declarator) :
    declarator.unplaced.live = declarator.live.map Token.unplaced := by
  rw [live, live, settled_unplaced, List.map_append, List.map_reverse]
  rfl

end Declarator

theorem nextDeclarator?_unplaced (passed ahead : List Token) :
    nextDeclarator? (passed.map unplaced) (ahead.map unplaced) =
      (nextDeclarator? passed ahead).map (Prod.map (List.map unplaced) (List.map unplaced)) := by
  induction ahead generalizing passed with
  | nil => rfl
  | cons token rest ih =>
    have next := ih (token :: passed)
    rw [List.map_cons] at next
    simp only [List.map_cons, nextDeclarator?, kind_unplaced, next]
    split <;> rfl

/-! ## Declarations -/

def Variable.unplaced (declared : Variable) : Variable :=
  ⟨declared.name.unplaced, declared.qualifiers.map Token.unplaced, declared.typeReference⟩

namespace Declaration

def unplaced (declaration : Declaration) : Declaration :=
  ⟨declaration.declared.map Variable.unplaced, declaration.live.map Token.unplaced⟩

theorem typeEnd?_unplaced (known : Option Token) (declarator : Declarator) :
    typeEnd? (known.map Token.unplaced) declarator.unplaced =
      (typeEnd? known declarator).map Token.unplaced := by
  cases known with
  | some token => rfl
  | none =>
    have sameEnd : declarator.unplaced.qualification.typeEnd =
        declarator.qualification.typeEnd.unplaced := rfl
    simp only [Option.map_none, typeEnd?, sameEnd, kind_unplaced]
    split <;> rfl

theorem typeReference?_unplaced (live : List Token) (typeEnd : Token) :
    typeReference? (live.map Token.unplaced) typeEnd.unplaced = typeReference? live typeEnd := by
  have place : (live.map Token.unplaced).findIdx? (fun token => token.id = typeEnd.id) =
      live.findIdx? fun token => token.id = typeEnd.id :=
    findIdx?_unplaced (by simp) live
  simp only [typeReference?, List.length_map, kind_unplaced, id_unplaced, text_unplaced, place,
    List.getElem?_map]
  cases live.findIdx? fun token => token.id = typeEnd.id with
  | none => rfl
  | some place =>
    cases place with
    | zero => rfl
    | succ before =>
      cases isBefore : live[before]? with
      | none => simp [isBefore]
      | some token => simp [isBefore]

theorem unplaced_first (declarator : Declarator) (typeEnd : Token) :
    (⟨declarator.unplaced.name, declarator.unplaced.qualifiers,
        typeReference? declarator.unplaced.live typeEnd.unplaced⟩ : Variable) =
      Variable.unplaced ⟨declarator.name, declarator.qualifiers,
        typeReference? declarator.live typeEnd⟩ := by
  rw [Declarator.live_unplaced, typeReference?_unplaced, Declarator.qualifiers_unplaced]
  rfl

theorem unplaced_readFrom (file : SourceFile) (entry : ScopeKind) (known : Option Token)
    (passed ahead : List Token) :
    readFrom file entry (known.map Token.unplaced) (passed.map Token.unplaced)
        (ahead.map Token.unplaced) =
      (readFrom file entry known passed ahead).unplaced := by
  have nothing (passed ahead : List Token) :
      (⟨[], (passed.map Token.unplaced).reverse ++ ahead.map Token.unplaced⟩ : Declaration) =
        unplaced ⟨[], passed.reverse ++ ahead⟩ := by
    simp [unplaced]
  fun_induction readFrom file entry known passed ahead with
  | case1 known passed ahead none =>
    rw [readFrom_eq, Declarator.find?_unplaced, none]
    exact nothing passed ahead
  | case2 known passed ahead declarator found none =>
    rw [readFrom_eq, Declarator.find?_unplaced, found]
    simp only [Option.map_some, typeEnd?_unplaced, none]
    exact nothing passed ahead
  | case3 known passed ahead declarator found typeEnd ended first none =>
    have isAhead : declarator.unplaced.ahead = declarator.ahead.map Token.unplaced := rfl
    rw [readFrom_eq, Declarator.find?_unplaced, found]
    simp only [Option.map_some, typeEnd?_unplaced, ended, isAhead, Declarator.settled_unplaced,
      nextDeclarator?_unplaced, none, Option.map_none, unplaced_first]
    rw [Declarator.live_unplaced]
    rfl
  | case4 known passed ahead declarator found typeEnd ended first passed' ahead' next others ih =>
    have isAhead : declarator.unplaced.ahead = declarator.ahead.map Token.unplaced := rfl
    rw [Option.map_some] at ih
    rw [readFrom_eq, Declarator.find?_unplaced, found]
    simp only [Option.map_some, typeEnd?_unplaced, ended, isAhead, Declarator.settled_unplaced,
      nextDeclarator?_unplaced, next, unplaced_first, Prod.map_apply, ih]
    rfl

/-- What a declaration is read as does not depend on places. -/
theorem unplaced_read (file : SourceFile) (entry : ScopeKind) (live : List Token) :
    read file entry (live.map Token.unplaced) = (read file entry live).unplaced := by
  cases live with
  | nil => rfl
  | cons first rest =>
    simp only [List.map_cons, read, kind_unplaced]
    split
    · exact unplaced_readFrom file entry none [] (first :: rest)
    · rfl

end Declaration

end DeclScan
