import Mathlib
import DeclScan.Proofs.History

/-!
# What tags record

A tag is made while the scopes of the qualifiers are entered: its kind and its
scope come from the scopes as they are then, but whether the variable can be
seen outside of its file comes from the kind of the scope around the statement.
The main statement is `Chain.scan_tagContents`: each tag records its own name
and qualifiers, whatever the other declarators of the statement are.
-/

set_option autoImplicit false

namespace DeclScan

namespace Scan

variable (scopes : ScopeStack) {qualifiers : List Token}

theorem innermost?_enterQualifiers (qualified : qualifiers ≠ []) :
    (enterQualifiers scopes qualifiers).innermost?.map ScopeFrame.kind = some .inClass := by
  obtain ⟨nearest, others, rfl⟩ := List.exists_cons_of_ne_nil qualified
  rfl

theorem currentKind_enterQualifiers (qualified : qualifiers ≠ []) :
    (enterQualifiers scopes qualifiers).currentKind = .inClass := by
  obtain ⟨nearest, others, rfl⟩ := List.exists_cons_of_ne_nil qualified
  rfl

theorem map_name_enterQualifiers (qualifiers : List Token) :
    (enterQualifiers scopes qualifiers).outermostFirst.map ScopeFrame.name =
      scopes.outermostFirst.map ScopeFrame.name ++ qualifiers.reverse.map Token.text := by
  rw [outermostFirst_enterQualifiers, List.map_append, List.map_map]
  rfl

theorem frames_enterQualifiers_eq_nil_iff :
    (enterQualifiers scopes qualifiers).frames = [] ↔ scopes.frames = [] ∧ qualifiers = [] := by
  rw [frames_enterQualifiers, List.append_eq_nil_iff, List.map_eq_nil_iff, and_comm]

end Scan

namespace ScopeStack

variable (scopes : ScopeStack)

theorem qualifiedName?_eq_none_iff : scopes.qualifiedName? = none ↔ scopes.frames = [] := by
  obtain ⟨frames⟩ := scopes
  unfold qualifiedName?
  split
  · rename_i nothing
    simpa [outermostFirst] using nothing
  · rename_i something
    simpa [outermostFirst] using something

theorem eq_of_qualifiedName? {scope : String} (named : scopes.qualifiedName? = some scope) :
    scope = "::".intercalate (scopes.outermostFirst.map ScopeFrame.name) := by
  unfold qualifiedName? at named
  split at named
  · cases named
  · exact (Option.some.inj named).symm

theorem innermost?_eq_none_iff : scopes.innermost? = none ↔ scopes.frames = [] :=
  List.head?_eq_none_iff

end ScopeStack

/-- What the tag of a variable says of its name, its qualifiers with the
outermost one first, and the scopes around the statement. -/
structure Tag.Records (file : SourceFile) (storage : Storage) (scopes : ScopeStack)
    (anchor : Token) (qualifiers : List Token) (tag : Tag) : Prop where
  named : tag.name = anchor.text
  placed : tag.position = anchor.position
  external : storage.seenExtern = true → tag.kind = .externalVariable
  qualified : storage.seenExtern = false → qualifiers ≠ [] → tag.kind = .member
  unqualified : storage.seenExtern = false → qualifiers = [] →
    (scopes.currentKind, tag.kind) ∈
      [(.inClass, .member), (.inStruct, .member), (.inUnion, .member),
        (.inFunction, .localVariable),
        (.inNamespace, .namespaceVariable), (.inEnum, .namespaceVariable)]
  unscoped : tag.scope = none ↔ scopes.frames = [] ∧ qualifiers = []
  scope : ∀ scope, tag.scope = some scope →
    scope = "::".intercalate
      (scopes.outermostFirst.map ScopeFrame.name ++ qualifiers.map Token.text)
  inClass : qualifiers ≠ [] → tag.scopeKind = some .inClass
  inScope : qualifiers = [] → tag.scopeKind = scopes.innermost?.map ScopeFrame.kind
  outermost : tag.scopeKind = none ↔ scopes.frames = [] ∧ qualifiers = []
  inNamespace : scopes.currentKind = .inNamespace →
    tag.fileScope = (storage.seenStatic && !file.isHeader)
  inFunction : scopes.currentKind = .inFunction → tag.fileScope = true
  elsewhere : scopes.currentKind ≠ .inNamespace → scopes.currentKind ≠ .inFunction →
    tag.fileScope = !file.isHeader

namespace Scan

variable (file : SourceFile) (storage : Storage) (scopes : ScopeStack)

def tagOf (declared : Variable) : Tag :=
  Context.complete ⟨file, storage, scopes.currentKind⟩ declared
    (Context.offered ⟨file, storage, scopes.currentKind⟩ scopes declared).tag

theorem kind_tagOf (declared : Variable) :
    (tagOf file storage scopes declared).kind =
      if storage.seenExtern then .externalVariable
      else (enterQualifiers scopes declared.qualifiers).variableKind := rfl

theorem variableKind_mem (scopes : ScopeStack) :
    (scopes.currentKind, scopes.variableKind) ∈
      [(.inClass, .member), (.inStruct, .member), (.inUnion, .member),
        (.inFunction, .localVariable),
        (.inNamespace, .namespaceVariable), (.inEnum, .namespaceVariable)] := by
  rw [ScopeStack.variableKind]
  cases scopes.currentKind <;> decide

theorem fileScope_tagOf (declared : Variable) :
    (tagOf file storage scopes declared).fileScope =
      Context.isFileScope ⟨file, storage, scopes.currentKind⟩ := rfl

theorem records_tagOf (declared : Variable) :
    (tagOf file storage scopes declared).Records file storage scopes declared.name
      declared.qualifiers.reverse where
  named := rfl
  placed := rfl
  external := by
    intro seen
    rw [kind_tagOf, if_pos seen]
  qualified := by
    intro unseen qualified
    have some : declared.qualifiers ≠ [] := by simpa using qualified
    rw [kind_tagOf, unseen, ScopeStack.variableKind, currentKind_enterQualifiers scopes some]
    rfl
  unqualified := by
    intro unseen none
    rw [kind_tagOf, unseen, List.reverse_eq_nil_iff.1 none]
    exact variableKind_mem scopes
  unscoped := by
    rw [List.reverse_eq_nil_iff, ← frames_enterQualifiers_eq_nil_iff]
    exact ScopeStack.qualifiedName?_eq_none_iff _
  scope := by
    intro scope isScope
    rw [← map_name_enterQualifiers]
    exact ScopeStack.eq_of_qualifiedName? _ isScope
  inClass := by
    intro qualified
    have some : declared.qualifiers ≠ [] := by simpa using qualified
    exact innermost?_enterQualifiers scopes some
  inScope := by
    intro none
    have isScope : (tagOf file storage scopes declared).scopeKind =
        (enterQualifiers scopes declared.qualifiers).innermost?.map ScopeFrame.kind := rfl
    rw [isScope, List.reverse_eq_nil_iff.1 none]
    rfl
  outermost := by
    rw [List.reverse_eq_nil_iff, ← frames_enterQualifiers_eq_nil_iff,
      ← ScopeStack.innermost?_eq_none_iff]
    exact Option.map_eq_none_iff
  inNamespace := by
    intro isEntry
    rw [fileScope_tagOf, isEntry]
    rfl
  inFunction := by
    intro isEntry
    rw [fileScope_tagOf, isEntry]
    rfl
  elsewhere := by
    intro noNamespace noFunction
    rw [fileScope_tagOf, Context.isFileScope]
    split
    · contradiction
    · contradiction
    · rfl

end Scan

namespace Chain

variable (file : SourceFile) (storage : Storage) (chain : Chain) (scopes : ScopeStack)
  (collector : Collector)

theorem tags_scan :
    (chain.scan Collector.sink file storage scopes collector).state =
      { collector with
        tags := collector.tags ++
          (((Declaration.read file scopes.currentKind chain.live).declared.map
            (Scan.tagOf file storage scopes)).filter fun tag =>
              tag.kind ∈ collector.accepted).toArray } := by
  rw [state_scan, Collector.offerAll_sink, List.filter_map]
  rfl

/-- A statement adds one tag to a collector for each declared name, unless the
collector does not accept its kind.  The live tokens are divided into one
stretch for each name, and its tag records the name and the qualifiers of that
stretch in the scopes around the statement. -/
theorem scan_tagContents :
    ∃ stretches rest tags,
      chain.live = stretches.flatMap Stretch.tokens ++ rest ∧
      (chain.scan Collector.sink file storage scopes collector).chain.live =
        stretches.flatMap Stretch.kept ++ rest ∧
      List.Forall₂ (fun (stretch : Stretch) (tag : Tag) =>
          ∃ name, stretch.Names name ∧
            tag.Records file storage scopes name (stretch.qualifiers.map Qualifier.name))
        stretches tags ∧
      (chain.scan Collector.sink file storage scopes collector).state =
        { collector with
          tags := collector.tags ++
            (tags.filter fun tag => tag.kind ∈ collector.accepted).toArray } := by
  obtain ⟨stretches, rest, whole, kept, declared⟩ :=
    Declaration.read_stretches file scopes.currentKind chain.live
  refine ⟨stretches, rest, _, whole, kept, ?_, tags_scan file storage chain scopes collector⟩
  rw [List.forall₂_map_right_iff]
  refine declared.imp fun stretch declared isDeclared => ⟨declared.name, isDeclared.1, ?_⟩
  rw [← isDeclared.2]
  exact Scan.records_tagOf file storage scopes declared

/-- The qualifiers of `a` do not show in the tag of `b`. -/
example :
    (scanStatement Collector.sink ⟨.cpp, false⟩ "int N::M::a = 1, b;"
        ⟨[⟨"box", .inStruct, .unknown, none⟩]⟩ (.empty TagKind.all)).toOption.map
      (fun outcome => outcome.state.tags.map fun tag => (tag.name, tag.scope, tag.scopeKind)) =
      some #[("a", some "box::N::M", some .inClass), ("b", some "box", some .inStruct)] := by
  decide +kernel

end Chain

end DeclScan
