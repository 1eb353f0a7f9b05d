import Mathlib
import DeclScan.Declaration
import DeclScan.Proofs.Declarator

/-!
# The live tokens of a declaration

Reading a declaration divides the live tokens into one stretch for each
declared name, and a rest in which nothing was found.  Each stretch ends with
the token that holds the name, and keeps all of its tokens but the names of its
qualifiers.  `Declaration.read_stretches` is the main statement.
-/

set_option autoImplicit false

namespace DeclScan

/-- The live tokens up to a declared name: what leads to it, the qualifiers of
the name with the outermost one first, and the token that holds the name. -/
structure Stretch where
  lead : List Token
  qualifiers : List Qualifier
  holder : Token

namespace Stretch

def tokens (stretch : Stretch) : List Token :=
  stretch.lead ++ stretch.qualifiers.flatMap Qualifier.tokens ++ [stretch.holder]

def kept (stretch : Stretch) : List Token :=
  stretch.lead ++ stretch.qualifiers.map Qualifier.colons ++ [stretch.holder]

/-- The stretch holds this name, and no further qualifier precedes it: the lead
ends in a token that is no pair of colons. -/
structure Names (stretch : Stretch) (name : Token) : Prop where
  preceded : ∃ token ∈ stretch.lead.getLast?, token.kind ≠ .punct .doubleColon
  pairs : ∀ qualifier ∈ stretch.qualifiers, qualifier.IsPair
  held : stretch.holder = name ∧ name.kind = .identifier ∨
    stretch.holder.kind = .group .round ∧
      Token.lastNested? TokenKind.isIdentifier stretch.holder.nested = some name

theorem length_tokens (stretch : Stretch) :
    stretch.tokens.length = stretch.kept.length + stretch.qualifiers.length := by
  simp only [tokens, kept, List.length_append, Qualifier.length_flatMap_tokens, List.length_map]
  omega

theorem length_flatMap_tokens (stretches : List Stretch) :
    (stretches.flatMap tokens).length =
      (stretches.flatMap kept).length +
        (stretches.map fun stretch => stretch.qualifiers.length).sum := by
  induction stretches with
  | nil => rfl
  | cons stretch rest ih =>
    simp only [List.flatMap_cons, List.length_append, List.map_cons, List.sum_cons, ih,
      length_tokens]
    omega

theorem kept_sublist_tokens (stretch : Stretch) : stretch.kept.Sublist stretch.tokens := by
  have pairs : (stretch.qualifiers.map Qualifier.colons).Sublist
      (stretch.qualifiers.flatMap Qualifier.tokens) := by
    induction stretch.qualifiers with
    | nil => exact .slnil
    | cons qualifier rest ih =>
      rw [List.flatMap_cons]
      exact (ih.cons_cons qualifier.colons).cons qualifier.name
  exact (pairs.append_left stretch.lead).append_right [stretch.holder]

theorem flatMap_kept_sublist (stretches : List Stretch) :
    (stretches.flatMap kept).Sublist (stretches.flatMap tokens) := by
  induction stretches with
  | nil => exact .slnil
  | cons stretch rest ih => exact stretch.kept_sublist_tokens.append ih

def Declares (stretch : Stretch) (declared : Variable) : Prop :=
  stretch.Names declared.name ∧
    declared.qualifiers.reverse = stretch.qualifiers.map Qualifier.name

end Stretch

namespace Declarator

variable {file : SourceFile} {entry : ScopeKind} {passed ahead : List Token}
  {declarator : Declarator}

theorem mem_getLast?_of_joined {nearest : Token} {before since old : List Token}
    (joined : nearest :: before = since.reverse ++ old) (reaches : old = [] ∨ since ≠ []) :
    nearest ∈ since.getLast? := by
  rcases List.eq_nil_or_concat since with rfl | ⟨inner, last, rfl⟩
  · rcases reaches with nothing | some
    · rw [nothing] at joined
      cases joined
    · exact absurd rfl some
  · obtain ⟨rfl, _⟩ : nearest = last ∧ before = inner.reverse ++ old := by simpa using joined
    simp

/-- The stretch of a declarator, whose lead starts with tokens that are pending
from before. -/
theorem exists_stretch_of_find? {pending old : List Token} (start : StartsDeclarator passed)
    (split : passed = pending.reverse ++ old) (reaches : old = [] ∨ pending ≠ [])
    (found : find? file entry passed ahead = some declarator) :
    ∃ stretch : Stretch,
      pending ++ ahead = stretch.tokens ++ declarator.ahead ∧
      declarator.settled = stretch.kept.reverse ++ old ∧
      stretch.holder = declarator.site.holder ∧
      stretch.Names declarator.name ∧
      declarator.qualifiers.reverse = stretch.qualifiers.map Qualifier.name := by
  obtain ⟨lead, whole, isLead⟩ := exists_lead_of_find? start found
  obtain ⟨_, held, notable, after, _, _, ending, holder, _, qualified⟩ :=
    (find?_iff_ending start).1 found
  obtain ⟨_, pairs, noColons⟩ := qualification?_eq_some_iff.1 qualified
  have joined : declarator.qualification.typeEnd :: declarator.qualification.before =
      (pending ++ lead).reverse ++ old := by
    rw [isLead, split]
    simp
  refine ⟨⟨pending ++ lead, declarator.qualification.qualifiers.reverse,
    declarator.site.holder⟩, ?_, ?_, rfl, ⟨?_, ?_, ?_⟩, ?_⟩
  · rw [whole]
    simp [Stretch.tokens]
  · simp only [settled, Qualification.settled, joined, Stretch.kept]
    simp
  · refine ⟨declarator.qualification.typeEnd, ?_, noColons⟩
    apply mem_getLast?_of_joined joined
    rcases reaches with nothing | some
    · exact .inl nothing
    · exact .inr (List.append_ne_nil_of_left_ne_nil some lead)
  · intro qualifier member
    exact pairs qualifier (List.mem_reverse.1 member)
  · cases ending with
    | plain isName _ => exact .inl ⟨(List.cons.inj holder).1, isName⟩
    | arguments isName => exact .inl ⟨(List.cons.inj holder).1, isName⟩
    | pointer shape =>
      obtain ⟨isHolder, _⟩ := List.cons.inj holder
      exact .inr ⟨isHolder ▸ shape.isGroup, isHolder ▸ shape.nested⟩
  · simp [qualifiers]

end Declarator

namespace Declaration

variable {file : SourceFile} {entry : ScopeKind}

/-- The tokens that were passed since the last name are still pending: they
belong to the stretch of the next name. -/
theorem readFrom_stretches (known : Option Token) {passed pending old : List Token}
    (ahead : List Token) (start : StartsDeclarator passed) (split : passed = pending.reverse ++ old)
    (reaches : old = [] ∨ pending ≠ []) :
    ∃ stretches rest,
      pending ++ ahead = stretches.flatMap Stretch.tokens ++ rest ∧
      (readFrom file entry known passed ahead).live =
        old.reverse ++ (stretches.flatMap Stretch.kept ++ rest) ∧
      List.Forall₂ Stretch.Declares stretches
        (readFrom file entry known passed ahead).declared := by
  have stopped {passed ahead pending old : List Token} (split : passed = pending.reverse ++ old) :
      ∃ stretches rest, pending ++ ahead = stretches.flatMap Stretch.tokens ++ rest ∧
        passed.reverse ++ ahead = old.reverse ++ (stretches.flatMap Stretch.kept ++ rest) ∧
        List.Forall₂ Stretch.Declares stretches [] :=
    ⟨[], pending ++ ahead, rfl, by simp [split], .nil⟩
  -- each turn reads one declarator, and its stretch takes up what is pending
  fun_induction readFrom file entry known passed ahead generalizing pending old with
  | case1 => exact stopped split
  | case2 => exact stopped split
  | case3 known passed ahead declarator found =>
    obtain ⟨stretch, tokens, settled, _, names, qualifiers⟩ :=
      Declarator.exists_stretch_of_find? start split reaches found
    refine ⟨[stretch], declarator.ahead, by simpa using tokens, ?_,
      .cons ⟨names, qualifiers⟩ .nil⟩
    simp [Declarator.live, settled]
  | case4 known passed ahead declarator found _ _ _ nearer others next =>
    rename_i ih
    obtain ⟨stretch, tokens, settled, _, names, qualifiers⟩ :=
      Declarator.exists_stretch_of_find? start split reaches found
    obtain ⟨nextPending, some, nextSplit, isAhead⟩ := nextDeclarator?_pending next
    obtain ⟨stretches, rest, restTokens, restLive, restDeclared⟩ :=
      ih (startsDeclarator_next next) nextSplit (.inr some)
    refine ⟨stretch :: stretches, rest, ?_, ?_, .cons ⟨names, qualifiers⟩ restDeclared⟩
    · rw [tokens, isAhead, List.flatMap_cons, List.append_assoc, ← restTokens]
    · rw [restLive, settled]
      simp

/-- Reading a declaration takes the names of qualifiers out of the live tokens,
and leaves all other tokens in their order. -/
theorem read_stretches (file : SourceFile) (entry : ScopeKind) (live : List Token) :
    ∃ stretches rest,
      live = stretches.flatMap Stretch.tokens ++ rest ∧
      (read file entry live).live = stretches.flatMap Stretch.kept ++ rest ∧
      List.Forall₂ Stretch.Declares stretches (read file entry live).declared := by
  cases live with
  | nil => exact ⟨[], [], rfl, rfl, .nil⟩
  | cons first others =>
    by_cases isWord : first.kind.isWord = true
    · have readsOn : read file entry (first :: others) =
          readFrom file entry none [] (first :: others) := if_pos isWord
      rw [readsOn]
      have nothingPassed : ([] : List Token) = [].reverse ++ [] := rfl
      simpa using readFrom_stretches none (first :: others) startsDeclarator_nil nothingPassed
        (.inl rfl)
    · have stops : read file entry (first :: others) = ⟨[], first :: others⟩ := if_neg isWord
      rw [stops]
      exact ⟨[], first :: others, rfl, rfl, .nil⟩

/-- Where no variable is declared, all tokens stay live. -/
theorem live_of_declared_eq_nil {live : List Token}
    (none : (read file entry live).declared = []) : (read file entry live).live = live := by
  obtain ⟨stretches, rest, whole, kept, declared⟩ := read_stretches file entry live
  rw [none, List.forall₂_nil_right_iff] at declared
  subst declared
  rw [kept]
  exact whole.symm

end Declaration

end DeclScan
