import DeclScan.Declarator
import DeclScan.Proofs.NameSite
import DeclScan.Proofs.Qualification

/-!
# Where a declarator is found

A declarator starts at the front of a statement or behind a comma.  From there
`Declarator.find?_iff_ending` says which tokens ahead are read as a declarator,
and `Declarator.exists_lead_of_find?` that its qualifiers are read from those
tokens as well: they never reach back over the comma.
-/

set_option autoImplicit false

namespace DeclScan

/-- What was passed before a declarator ends in a comma, or nothing was. -/
def StartsDeclarator (passed : List Token) : Prop :=
  ∀ token ∈ passed.head?, token.kind = .punct .comma

theorem startsDeclarator_nil : StartsDeclarator [] := nofun

theorem startsDeclarator_cons {comma : Token} (passed : List Token)
    (isComma : comma.kind = .punct .comma) : StartsDeclarator (comma :: passed) := by
  intro token isHead
  obtain rfl : comma = token := by simpa using isHead
  exact isComma

namespace Declarator

variable {file : SourceFile} {entry : ScopeKind} {passed ahead : List Token}
  {declarator : Declarator}

theorem before_ne_nil {before : List Token} {qualification : Qualification}
    (qualified : qualification? before = some qualification) : before ≠ [] := by
  intro nothing
  rw [nothing] at qualified
  cases qualified

theorem held_ahead {name : Token} {held front before : List Token} {notable : Token}
    {after : List Token} (start : StartsDeclarator passed)
    (ending : Ending file entry held notable after name)
    (split : front.reverse ++ passed = held.reverse ++ before) :
    ∃ lead, front = lead ++ held ∧ before = lead.reverse ++ passed := by
  have single (isName : name.kind = .identifier)
      (split : front.reverse ++ passed = name :: before) :
      ∃ lead, front = lead ++ [name] ∧ before = lead.reverse ++ passed := by
    rcases List.eq_nil_or_concat front with rfl | ⟨inner, last, rfl⟩
    · have isPassed : passed = name :: before := by simpa using split
      have isComma := start name (by simp [isPassed])
      rw [isName] at isComma
      cases isComma
    · obtain ⟨rfl, rfl⟩ : last = name ∧ inner.reverse ++ passed = before := by simpa using split
      exact ⟨inner, by simp, rfl⟩
  cases ending with
  | plain isName _ => exact single isName split
  | arguments isName => exact single isName split
  | pointer _ => exact ⟨front, by simp, split.symm⟩

theorem find?_iff_ending (start : StartsDeclarator passed) :
    find? file entry passed ahead = some declarator ↔
      ∃ lead held notable after,
        ahead = lead ++ held ++ notable :: after ∧
        Pieces TokenKind.isPassable (lead ++ held) ∧
        Ending file entry held notable after declarator.name ∧
        declarator.site.holder :: declarator.ahead = held ++ notable :: after ∧
        declarator.site.before = lead.reverse ++ passed ∧
        qualification? declarator.site.before = some declarator.qualification := by
  rw [find?_eq_some_iff]
  constructor
  · intro found
    obtain ⟨lead, passedLead, named, qualified⟩ := found
    obtain ⟨front, pieces, isNotable, whole, exact⟩ := leadIn?_eq_some_iff.1 passedLead
    have preceded := before_ne_nil qualified
    obtain ⟨held, ending, split, holder⟩ :=
      (LeadIn.nameSite?_eq_some_iff isNotable preceded).1 named
    rw [exact] at split
    obtain ⟨before, rfl, isBefore⟩ := held_ahead start ending split
    exact ⟨before, held, lead.notable, lead.after, whole, pieces, ending, holder, isBefore,
      qualified⟩
  · intro read
    obtain ⟨lead, held, notable, after, whole, pieces, ending, holder, isBefore, qualified⟩ := read
    have preceded := before_ne_nil qualified
    refine ⟨⟨(lead ++ held).reverse ++ passed, notable, after⟩, ?_, ?_, qualified⟩
    · rw [leadIn?_eq_some_iff]
      exact ⟨lead ++ held, pieces, ending.isNotable, whole, rfl⟩
    · rw [LeadIn.nameSite?_eq_some_iff ending.isNotable preceded]
      exact ⟨held, ending, by simp [isBefore], holder⟩

/-- Tokens that end in a type, the qualifiers of a name and the name itself are
read as a declarator. -/
theorem find?_of_ending {lead held before after others : List Token} {typeEnd notable name : Token}
    {holder : Token} {qualifiers : List Qualifier} (start : StartsDeclarator passed)
    (pieces : Pieces TokenKind.isPassable (lead ++ qualifiers.flatMap Qualifier.tokens ++ held))
    (ending : Ending file entry held notable after name)
    (isHolder : holder :: others = held ++ notable :: after)
    (pairs : ∀ qualifier ∈ qualifiers, qualifier.IsPair)
    (preceding : lead.reverse ++ passed = typeEnd :: before)
    (noColons : typeEnd.kind ≠ .punct .doubleColon) :
    find? file entry passed (lead ++ qualifiers.flatMap Qualifier.tokens ++ holder :: others) =
      some ⟨⟨name, holder, (lead ++ qualifiers.flatMap Qualifier.tokens).reverse ++ passed, others⟩,
        ⟨qualifiers.reverse, typeEnd, before⟩⟩ := by
  have isBefore : (lead ++ qualifiers.flatMap Qualifier.tokens).reverse ++ passed =
      (qualifiers.flatMap Qualifier.tokens).reverse ++ typeEnd :: before := by
    rw [List.reverse_append, List.append_assoc, preceding]
  have qualified := qualification?_of_pairs before pairs noColons
  rw [← isBefore] at qualified
  rw [find?_iff_ending start, isHolder]
  exact ⟨_, held, notable, after, by simp, pieces, ending, isHolder, rfl, qualified⟩

/-- The same where the holder of the name is not told apart. -/
theorem exists_find?_of_ending {lead held before after : List Token}
    {typeEnd notable name : Token} {qualifiers : List Qualifier} (start : StartsDeclarator passed)
    (pieces : Pieces TokenKind.isPassable (lead ++ qualifiers.flatMap Qualifier.tokens ++ held))
    (ending : Ending file entry held notable after name)
    (pairs : ∀ qualifier ∈ qualifiers, qualifier.IsPair)
    (preceding : lead.reverse ++ passed = typeEnd :: before)
    (noColons : typeEnd.kind ≠ .punct .doubleColon) :
    ∃ declarator,
      find? file entry passed
          (lead ++ qualifiers.flatMap Qualifier.tokens ++ held ++ notable :: after) =
        some declarator ∧
      declarator.qualification.typeEnd = typeEnd := by
  have some : held ++ notable :: after ≠ [] := by simp
  obtain ⟨holder, others, isHolder⟩ := List.exists_cons_of_ne_nil some
  have found := find?_of_ending start pieces ending isHolder.symm pairs preceding noColons
  rw [← isHolder, ← List.append_assoc] at found
  exact ⟨_, found, rfl⟩

theorem split_at_start {nearer front rest : List Token} {token : Token}
    (start : StartsDeclarator passed) (noComma : ∀ other ∈ nearer, other.kind ≠ .punct .comma)
    (split : front ++ passed = nearer ++ token :: rest) :
    ∃ lead, front = nearer ++ lead ∧ token :: rest = lead ++ passed := by
  rcases List.append_eq_append_iff.1 split with ⟨overlap, isNearer, isPassed⟩ | further
  · cases overlap with
    | nil => exact ⟨[], by simpa using isNearer.symm, by simpa using isPassed.symm⟩
    | cons other others =>
      have isComma := start other (by simp [isPassed])
      exact absurd isComma (noComma other (by simp [isNearer]))
  · obtain ⟨lead, isFront, isRest⟩ := further
    exact ⟨lead, isFront, isRest⟩

/-- The tokens ahead that belong to a declarator: its lead, the qualifiers of
the name, and the holder of the name. -/
theorem exists_lead_of_find? (start : StartsDeclarator passed)
    (found : find? file entry passed ahead = some declarator) :
    ∃ lead, ahead = lead ++
        declarator.qualification.qualifiers.reverse.flatMap Qualifier.tokens ++
          declarator.site.holder :: declarator.ahead ∧
      declarator.qualification.typeEnd :: declarator.qualification.before =
        lead.reverse ++ passed := by
  obtain ⟨front, held, notable, after, whole, _, _, holder, isBefore, qualified⟩ :=
    (find?_iff_ending start).1 found
  obtain ⟨tokens, pairs, _⟩ := qualification?_eq_some_iff.1 qualified
  rw [isBefore, Qualification.tokens_eq] at tokens
  have noComma : ∀ token ∈ (declarator.qualification.qualifiers.reverse.flatMap
      Qualifier.tokens).reverse, token.kind ≠ .punct .comma := by
    intro token member isComma
    have kinds := Qualifier.kind_of_mem_tokens
      (fun qualifier member => pairs qualifier (List.mem_reverse.1 member))
      (List.mem_reverse.1 member)
    rw [isComma] at kinds
    simp at kinds
  obtain ⟨lead, isFront, isRest⟩ := split_at_start start noComma tokens
  refine ⟨lead.reverse, ?_, by simpa using isRest⟩
  have ordered := congrArg List.reverse isFront
  simp only [List.reverse_reverse, List.reverse_append] at ordered
  rw [whole, holder, ordered]
  simp

theorem suffix_of_find? (found : find? file entry passed ahead = some declarator) :
    declarator.ahead <:+ ahead := by
  obtain ⟨lead, read, named, _⟩ := find?_eq_some_iff.1 found
  obtain ⟨front, _, _, isAhead, _⟩ := leadIn?_eq_some_iff.1 read
  rcases LeadIn.nameSite?_cases named with ⟨_, isSiteAhead⟩ | ⟨_, _, isSiteAhead⟩
  · exact ⟨front, by rw [Declarator.ahead, isSiteAhead, isAhead]⟩
  · exact ⟨front ++ [lead.notable], by rw [Declarator.ahead, isSiteAhead, isAhead]; simp⟩

end Declarator

section Next

variable {passed ahead nearer others : List Token}

theorem startsDeclarator_next (next : nextDeclarator? passed ahead = some (nearer, others)) :
    StartsDeclarator nearer := by
  obtain ⟨between, comma, isComma, _, rfl⟩ := nextDeclarator?_split next
  exact startsDeclarator_cons _ isComma

theorem nextDeclarator?_pending (next : nextDeclarator? passed ahead = some (nearer, others)) :
    ∃ pending, pending ≠ [] ∧ nearer = pending.reverse ++ passed ∧ ahead = pending ++ others := by
  obtain ⟨between, comma, _, isAhead, isNearer⟩ := nextDeclarator?_split next
  exact ⟨between ++ [comma], by simp, by simp [isNearer], by simp [isAhead]⟩

theorem suffix_of_next {file : SourceFile} {entry : ScopeKind} {declarator : Declarator}
    (found : Declarator.find? file entry passed ahead = some declarator)
    (next : nextDeclarator? declarator.settled declarator.ahead = some (nearer, others)) :
    others <:+ ahead := by
  obtain ⟨pending, _, _, isAhead⟩ := nextDeclarator?_pending next
  exact List.IsSuffix.trans ⟨pending, isAhead.symm⟩ (Declarator.suffix_of_find? found)

end Next

end DeclScan
