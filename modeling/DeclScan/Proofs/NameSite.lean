import DeclScan.Declarator.NameSite
import DeclScan.Proofs.LeadIn

/-!
# The shapes in which a name ends a lead-in

A name is declared in three shapes: it stands before a token that ends plain
names, before a group of constructor arguments, or nested in a group that a
parameter list follows.  `LeadIn.nameSite?_eq_some_iff` says that exactly these
are recognized.
-/

set_option autoImplicit false

namespace DeclScan

def plainEnds : List TokenKind :=
  [.punct .colon, .group .square, .punct .assign, .punct .comma, .punct .semicolon,
    .opening .curly]

theorem TokenKind.isNotable_iff {kind : TokenKind} :
    kind.isNotable = true ↔ kind = .group .round ∨ kind ∈ plainEnds := by
  cases kind with
  | opening bracket | closing bracket | group bracket =>
    cases bracket <;> simp [isNotable, plainEnds]
  | punct punctuator => cases punctuator <;> simp [isNotable, plainEnds]
  | _ => simp [isNotable, plainEnds]

/-- A parenthesis group in which the name is the last identifier, with a
parameter list behind it. -/
structure PointerShape (name group : Token) (after : List Token) : Prop where
  isGroup : group.kind = .group .round
  parameters : ∃ next ∈ after.head?,
    next.kind = .group .round ∧ Signature.looksLikeParameters next = true
  nested : Token.lastNested? TokenKind.isIdentifier group.nested = some name

theorem pointerShape_iff {name group : Token} {after : List Token}
    (isGroup : group.kind = .group .round) :
    PointerShape name group after ↔ pointerName? group after = some name := by
  constructor
  · intro shape
    obtain ⟨_, ⟨next, isNext, accepted⟩, nested⟩ := shape
    cases after with
    | nil => cases isNext
    | cons head others =>
      obtain rfl : head = next := by simpa using isNext
      rw [pointerName?, if_pos accepted]
      exact nested
  · intro found
    cases after with
    | nil => cases found
    | cons next others =>
      dsimp only [pointerName?] at found
      split at found
      · rename_i accepted
        exact ⟨isGroup, ⟨next, rfl, accepted⟩, found⟩
      · cases found

/-- The end of a declarator's lead-in: the tokens held back for the name, the
notable token, what follows it, and the name. -/
inductive Ending (file : SourceFile) (entry : ScopeKind) :
    List Token → Token → List Token → Token → Prop where
  | plain {name notable : Token} {after : List Token} :
      name.kind = .identifier → notable.kind ∈ plainEnds →
      Ending file entry [name] notable after name
  | arguments {name group : Token} {after : List Token} :
      name.kind = .identifier → group.kind = .group .round →
      (∀ nested, ¬ PointerShape nested group after) →
      file.language = .cpp → (entry = .inNamespace ∨ entry = .inFunction) →
      Signature.looksLikeArguments group = true →
      Ending file entry [name] group after name
  | pointer {name group : Token} {after : List Token} :
      PointerShape name group after → Ending file entry [] group after name

theorem Ending.isNotable {file : SourceFile} {entry : ScopeKind} {held after : List Token}
    {notable name : Token} (ending : Ending file entry held notable after name) :
    notable.kind.isNotable = true := by
  rw [TokenKind.isNotable_iff]
  cases ending with
  | plain _ isEnd => exact .inr isEnd
  | arguments _ isGroup => exact .inl isGroup
  | pointer shape => exact .inl shape.isGroup

theorem allowsArguments_iff {file : SourceFile} {entry : ScopeKind} :
    allowsArguments file entry = true ↔
      file.language = .cpp ∧ (entry = .inNamespace ∨ entry = .inFunction) := by
  cases language : file.language <;> simp [allowsArguments, Language.isCpp, language]

namespace LeadIn

variable {file : SourceFile} {entry : ScopeKind} {lead : LeadIn} {site : NameSite}

theorem ending_of_nameSite? (isNotable : lead.notable.kind.isNotable = true)
    (found : lead.nameSite? file entry = some site) :
    ∃ held, Ending file entry held lead.notable lead.after site.name ∧
      lead.passed = held.reverse ++ site.before ∧
      site.holder :: site.ahead = held ++ lead.notable :: lead.after := by
  unfold nameSite? at found
  split at found
  · cases found
  · rename_i previous before passed
    split at found
    · rename_i isGroup
      split at found
      · rename_i name named
        obtain rfl := Option.some.inj found
        exact ⟨[], .pointer ((pointerShape_iff isGroup).2 named), rfl, rfl⟩
      · rename_i unnamed
        split at found
        · rename_i accepted
          obtain ⟨isName, allowed, arguments⟩ := accepted
          obtain ⟨isCpp, inside⟩ := allowsArguments_iff.1 allowed
          obtain rfl := Option.some.inj found
          have noPointer (nested : Token) : ¬ PointerShape nested lead.notable lead.after := by
            rw [pointerShape_iff isGroup, unnamed]
            simp
          exact ⟨[previous], .arguments isName isGroup noPointer isCpp inside arguments,
            passed, rfl⟩
        · cases found
    · rename_i noGroup
      split at found
      · rename_i isName
        obtain rfl := Option.some.inj found
        have isEnd := (TokenKind.isNotable_iff.1 isNotable).resolve_left noGroup
        exact ⟨[previous], .plain isName isEnd, passed, rfl⟩
      · cases found

theorem nameSite?_of_ending {held : List Token} (preceded : site.before ≠ [])
    (ending : Ending file entry held lead.notable lead.after site.name)
    (passed : lead.passed = held.reverse ++ site.before)
    (whole : site.holder :: site.ahead = held ++ lead.notable :: lead.after) :
    lead.nameSite? file entry = some site := by
  obtain ⟨passedTokens, notable, after⟩ := lead
  obtain ⟨name, holder, before, ahead⟩ := site
  dsimp only at preceded ending passed whole
  cases ending with
  | plain isName isEnd =>
    obtain ⟨rfl, rfl⟩ := List.cons.inj whole
    have noGroup : notable.kind ≠ .group .round := by
      intro isGroup
      rw [isGroup] at isEnd
      simp [plainEnds] at isEnd
    subst passed
    simp [nameSite?, noGroup, isName]
  | arguments isName isGroup noPointer isCpp inside arguments =>
    obtain ⟨rfl, rfl⟩ := List.cons.inj whole
    have unnamed : pointerName? notable after = none := by
      rw [Option.eq_none_iff_forall_ne_some]
      intro nested named
      exact noPointer nested ((pointerShape_iff isGroup).2 named)
    have allowed := allowsArguments_iff.2 ⟨isCpp, inside⟩
    subst passed
    simp [nameSite?, isGroup, unnamed, isName, allowed, arguments]
  | pointer shape =>
    obtain ⟨rfl, rfl⟩ := List.cons.inj whole
    have named := (pointerShape_iff shape.isGroup).1 shape
    subst passed
    cases passedTokens with
    | nil => exact absurd rfl preceded
    | cons previous others => simp [nameSite?, shape.isGroup, named]

theorem nameSite?_eq_some_iff (isNotable : lead.notable.kind.isNotable = true)
    (preceded : site.before ≠ []) :
    lead.nameSite? file entry = some site ↔
      ∃ held, Ending file entry held lead.notable lead.after site.name ∧
        lead.passed = held.reverse ++ site.before ∧
        site.holder :: site.ahead = held ++ lead.notable :: lead.after := by
  constructor
  · exact ending_of_nameSite? isNotable
  · intro named
    obtain ⟨held, ending, passed, whole⟩ := named
    exact nameSite?_of_ending preceded ending passed whole

end LeadIn

end DeclScan
