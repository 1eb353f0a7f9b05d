import Mathlib
import DeclScan.Proofs.DeclaratorList
import DeclScan.Proofs.NestedSearch

/-!
# Declarators in parentheses

The declarator of a function pointer stands in a parenthesis group, and it may
hold further groups and parameter lists of its own.  The name is searched for
from the back and through all parentheses, so a parameter list of the declarator
that holds an identifier hides the name: `Chain.anchors_innerDeclarator`.
-/

set_option autoImplicit false

namespace DeclScan

namespace Token

def Nameless (list : Token) : Prop :=
  ∀ token : Token, token.InParentheses list.nested → token.kind ≠ .identifier

theorem lastNested?_eq_none_iff_nameless {list : Token} :
    lastNested? TokenKind.isIdentifier list.nested = none ↔ list.Nameless := by
  rw [lastNested?_eq_none_iff, Nameless]
  simp only [mem_spread_iff, TokenKind.isIdentifier, decide_eq_false_iff_not]

end Token

/-- The tokens of a declarator, the name that it declares, and its parameter
lists from left to right. -/
inductive InnerDeclarator : List Token → Token → List Token → Prop where
  | name {name : Token} : name.kind = .identifier → InnerDeclarator [name] name []
  | pointer {star name : Token} {own lists : List Token} : star.kind = .punct .star →
      InnerDeclarator own name lists → InnerDeclarator (star :: own) name lists
  | parentheses {group first last name : Token} {own lists : List Token} :
      group.kind = .group .round → group.nested = first :: (own ++ [last]) →
      first.kind = .opening .round → last.kind = .closing .round →
      InnerDeclarator own name lists → InnerDeclarator [group] name lists
  | array {group name : Token} {own lists : List Token} : group.kind = .group .square →
      InnerDeclarator own name lists → InnerDeclarator (own ++ [group]) name lists
  | function {list name : Token} {own lists : List Token} : list.kind = .group .round →
      Signature.looksLikeParameters list = true → InnerDeclarator own name lists →
      InnerDeclarator (own ++ [list]) name (lists ++ [list])

/-- The last identifier of the last parameter list that holds one, or else the
name itself. -/
def nameBehind (name : Token) (lists : List Token) : Token :=
  (lists.reverse.findSome? fun list =>
    Token.lastNested? TokenKind.isIdentifier list.nested).getD name

theorem nameBehind_append (name list : Token) (lists : List Token) :
    nameBehind name (lists ++ [list]) =
      (Token.lastNested? TokenKind.isIdentifier list.nested).getD (nameBehind name lists) := by
  rw [nameBehind, List.reverse_append, List.reverse_singleton, List.singleton_append,
    List.findSome?_cons]
  cases Token.lastNested? TokenKind.isIdentifier list.nested <;> rfl

theorem nameBehind_of_nameless {name : Token} {lists : List Token}
    (nameless : ∀ list ∈ lists, list.Nameless) : nameBehind name lists = name := by
  rw [nameBehind, List.findSome?_eq_none_iff.2, Option.getD_none]
  intro list member
  exact Token.lastNested?_eq_none_iff_nameless.2 (nameless list (List.mem_reverse.1 member))

theorem nameBehind_of_named {name : Token} {lists : List Token}
    (named : ∃ list ∈ lists, ¬ list.Nameless) :
    (nameBehind name lists).kind = .identifier ∧
      ∃ list ∈ lists, (nameBehind name lists).InParentheses list.nested := by
  obtain ⟨list, member, holdsName⟩ := named
  cases isFound : lists.reverse.findSome? fun list =>
      Token.lastNested? TokenKind.isIdentifier list.nested with
  | none =>
    have nothing := List.findSome?_eq_none_iff.1 isFound list (List.mem_reverse.2 member)
    exact absurd (Token.lastNested?_eq_none_iff_nameless.1 nothing) holdsName
  | some found =>
    obtain ⟨list, member, inList⟩ := List.exists_of_findSome?_eq_some isFound
    obtain ⟨isName, within⟩ := Token.wanted_of_lastNested? _ inList
    rw [nameBehind, isFound, Option.getD_some]
    exact ⟨of_decide_eq_true isName, list, List.mem_reverse.1 member, within⟩

/-- The search comes across the parameter lists before it comes to the name. -/
theorem InnerDeclarator.lastNested? {own lists : List Token} {name : Token}
    (shape : InnerDeclarator own name lists) :
    Token.lastNested? TokenKind.isIdentifier own = some (nameBehind name lists) := by
  have unwanted {token : Token} (noName : token.kind ≠ .identifier)
      (noGroup : token.kind ≠ .group .round) :
      Token.lastNested? TokenKind.isIdentifier [token] = none :=
    Token.lastNested?_of_unwanted (decide_eq_false noName) noGroup
  induction shape with
  | name isName =>
    rw [Token.lastNested?_singleton, isName]
    rfl
  | pointer isStar _ ih =>
    rw [Token.lastNested?_cons, ih, Option.some_or]
  | parentheses isGroup nested opens closes _ ih =>
    rw [Token.lastNested?_of_group rfl isGroup, nested, Token.lastNested?_cons,
      Token.lastNested?_append, unwanted (by simp [closes]) (by simp [closes]), Option.none_or, ih,
      Option.some_or]
  | array isGroup _ ih =>
    rw [Token.lastNested?_append, unwanted (by simp [isGroup]) (by simp [isGroup]),
      Option.none_or, ih]
  | function isGroup _ _ ih =>
    rw [Token.lastNested?_append, Token.lastNested?_of_group rfl isGroup, ih, nameBehind_append]
    cases Token.lastNested? TokenKind.isIdentifier _ <;> rfl

namespace Chain

/-- A declarator in parentheses with a parameter list behind it is offered once,
under its own name if no parameter list of the declarator holds an identifier,
and otherwise under an identifier of such a list. -/
theorem anchors_innerDeclarator {σ : Type} (sink : Sink σ) (file : SourceFile)
    (storage : Storage) (chain : Chain) (scopes : ScopeStack) (state : σ)
    {type own lists : List Token} {group opening star closing parameters stop name : Token}
    (isType : IsType type) (isGroup : group.kind = .group .round)
    (nested : group.nested = opening :: (star :: own ++ [closing]))
    (opens : opening.kind = .opening .round) (isStar : star.kind = .punct .star)
    (closes : closing.kind = .closing .round) (declarator : InnerDeclarator own name lists)
    (isList : parameters.kind = .group .round)
    (accepted : Signature.looksLikeParameters parameters = true)
    (isStop : stop.kind = .punct .semicolon)
    (live : chain.live = type ++ [group, parameters, stop]) :
    let anchors := (chain.offers sink file storage scopes state).map Offer.anchor
    anchors = [nameBehind name lists] ∧
      ((∀ list ∈ lists, list.Nameless) → anchors = [name]) ∧
      ((∃ list ∈ lists, ¬ list.Nameless) → ∃ parameter, anchors = [parameter] ∧
        parameter.kind = .identifier ∧
        ∃ list ∈ lists, parameter.InParentheses list.nested) := by
  have found : Token.lastNested? TokenKind.isIdentifier group.nested =
      some (nameBehind name lists) := by
    have whole : InnerDeclarator [group] name lists :=
      .parentheses isGroup nested opens closes (.pointer isStar declarator)
    rw [← whole.lastNested?, Token.lastNested?_of_group rfl isGroup]
  have shape : DeclaratorShape file scopes.currentKind [] [group, parameters]
      (nameBehind name lists) :=
    .pointer isGroup found isList accepted nofun
  obtain ⟨declared, _⟩ := Declaration.read_declaratorList isType
    (.last [] shape (.inl isStop))
  have anchors : (chain.offers sink file storage scopes state).map Offer.anchor =
      [nameBehind name lists] := by
    rw [anchors_offers, live]
    have names := congrArg (List.map Prod.fst) declared
    simpa using names
  refine ⟨anchors, ?_, ?_⟩
  · intro nameless
    rw [anchors, nameBehind_of_nameless nameless]
  · intro named
    exact ⟨_, anchors, nameBehind_of_named named⟩

def returningText : String := "int (*(*f)(int a))(int);"

def returningLexemes : List Lexeme :=
  [⟨.word, "int", .ofLength 0 3⟩, ⟨.opening .round, "(", .ofLength 4 1⟩,
    ⟨.punct .star, "*", .ofLength 5 1⟩, ⟨.opening .round, "(", .ofLength 6 1⟩,
    ⟨.punct .star, "*", .ofLength 7 1⟩, ⟨.word, "f", .ofLength 8 1⟩,
    ⟨.closing .round, ")", .ofLength 9 1⟩, ⟨.opening .round, "(", .ofLength 10 1⟩,
    ⟨.word, "int", .ofLength 11 3⟩, ⟨.word, "a", .ofLength 15 1⟩,
    ⟨.closing .round, ")", .ofLength 16 1⟩, ⟨.closing .round, ")", .ofLength 17 1⟩,
    ⟨.opening .round, "(", .ofLength 18 1⟩, ⟨.word, "int", .ofLength 19 3⟩,
    ⟨.closing .round, ")", .ofLength 22 1⟩, ⟨.punct .semicolon, ";", .ofLength 23 1⟩]

theorem lex_returningText : lex returningText = .ok returningLexemes := by cbv

def returningChain : Chain := .ofLexemes .cpp ⟨[]⟩ returningLexemes

theorem tokenize_returningText : tokenize returningText .cpp = .ok returningChain := by
  simp only [tokenize, lex_returningText]
  rfl

def returningToken (id : Nat) (kind : TokenKind) (text : String) (start size : Nat)
    (inner : List Token) : Token :=
  ⟨id, kind, text, .ofLength start size, ⟨0, start⟩, inner⟩

def returningType : List Token := [returningToken 0 (.keyword .kwInt) "int" 0 3 []]

def returningName : Token := returningToken 5 .identifier "f" 8 1 []

def returningStar : Token := returningToken 4 (.punct .star) "*" 7 1 []

def returningPointer : Token :=
  returningToken 7 (.group .round) "( * f )" 6 4
    [returningToken 3 (.opening .round) "(" 6 1 [], returningStar, returningName,
      returningToken 6 (.closing .round) ")" 9 1 []]

def returningParameter : Token := returningToken 10 .identifier "a" 15 1 []

def returningInner : Token :=
  returningToken 12 (.group .round) "( int a )" 10 7
    [returningToken 8 (.opening .round) "(" 10 1 [],
      returningToken 9 (.keyword .kwInt) "int" 11 3 [], returningParameter,
      returningToken 11 (.closing .round) ")" 16 1 []]

def returningGroup : Token :=
  returningToken 14 (.group .round) "( * ( * f ) ( int a ) )" 4 14
    [returningToken 1 (.opening .round) "(" 4 1 [], returningToken 2 (.punct .star) "*" 5 1 [],
      returningPointer, returningInner, returningToken 13 (.closing .round) ")" 17 1 []]

def returningOuter : Token :=
  returningToken 18 (.group .round) "( int )" 18 5
    [returningToken 15 (.opening .round) "(" 18 1 [],
      returningToken 16 (.keyword .kwInt) "int" 19 3 [],
      returningToken 17 (.closing .round) ")" 22 1 []]

def returningStop : Token := returningToken 19 (.punct .semicolon) ";" 23 1 []

theorem live_returningChain : returningChain.live =
    returningType ++ [returningGroup, returningOuter, returningStop] := by
  rfl

theorem isType_returningType : IsType returningType where
  pieces := .token rfl .nil
  ends := by simp [returningType, returningToken]
  starts := ⟨_, rfl, .inr ⟨.kwInt, rfl⟩⟩

theorem innerDeclarator_returning :
    InnerDeclarator [returningPointer, returningInner] returningName [returningInner] := by
  have nested : returningPointer.nested = returningToken 3 (.opening .round) "(" 6 1 [] ::
      ([returningStar, returningName] ++ [returningToken 6 (.closing .round) ")" 9 1 []]) := rfl
  have pointer : InnerDeclarator [returningPointer] returningName [] :=
    .parentheses rfl nested rfl rfl (.pointer rfl (.name rfl))
  exact .function rfl (by decide +kernel) pointer

theorem nested_returningGroup : returningGroup.nested =
    returningToken 1 (.opening .round) "(" 4 1 [] ::
      (returningToken 2 (.punct .star) "*" 5 1 [] :: [returningPointer, returningInner] ++
        [returningToken 13 (.closing .round) ")" 17 1 []]) := by
  rfl

theorem anchors_innerDeclarator_returning :
    InnerDeclarator [returningPointer, returningInner] returningName [returningInner] ∧
      (∃ list ∈ [returningInner], ¬ list.Nameless) ∧
      (returningChain.offers Collector.sink ⟨.cpp, false⟩ ⟨false, false⟩ .empty
        (.empty TagKind.all)).map Offer.anchor = [returningParameter] := by
  have named : ¬ returningInner.Nameless := by
    intro nameless
    apply nameless returningParameter _ rfl
    exact .here (by simp [returningInner, returningToken, returningParameter])
  obtain ⟨anchors, _⟩ := anchors_innerDeclarator Collector.sink ⟨.cpp, false⟩ ⟨false, false⟩
    returningChain .empty (.empty TagKind.all) isType_returningType rfl nested_returningGroup rfl
    rfl rfl innerDeclarator_returning rfl (by decide +kernel) rfl live_returningChain
  exact ⟨innerDeclarator_returning, ⟨_, List.mem_singleton_self _, named⟩, anchors⟩

/-- The function pointer `f` is offered under the name of its parameter. -/
theorem parameter_declared :
    tokenize returningText .cpp = .ok returningChain ∧
      IsType returningType ∧
      InnerDeclarator [returningPointer, returningInner] returningName [returningInner] ∧
      returningGroup.nested = returningToken 1 (.opening .round) "(" 4 1 [] ::
        (returningToken 2 (.punct .star) "*" 5 1 [] :: [returningPointer, returningInner] ++
          [returningToken 13 (.closing .round) ")" 17 1 []]) ∧
      Signature.looksLikeParameters returningOuter = true ∧
      returningChain.live = returningType ++ [returningGroup, returningOuter, returningStop] ∧
      returningName.text = "f" ∧
      (returningChain.offers Collector.sink ⟨.cpp, false⟩ ⟨false, false⟩ .empty
        (.empty TagKind.all)).map Offer.name = ["a"] :=
  ⟨tokenize_returningText, isType_returningType, innerDeclarator_returning,
    nested_returningGroup, by decide +kernel, live_returningChain, rfl, by decide +kernel⟩

end Chain

end DeclScan
