import Mathlib
import DeclScan.Proofs.Terminator

/-!
# Nothing behind the end is read

A scan that ends at a semicolon or an opening curly bracket has not looked at
anything behind it, but for the number of live tokens, on which only the type
reference of the last tag depends: `Chain.scan_replace`.
-/

set_option autoImplicit false

namespace DeclScan

namespace Declarator

variable {file : SourceFile} {entry : ScopeKind} {passed ahead : List Token}
  {declarator : Declarator}

theorem length_ahead_lt (start : StartsDeclarator passed)
    (found : find? file entry passed ahead = some declarator) :
    declarator.ahead.length < ahead.length := by
  obtain ⟨lead, whole, _⟩ := exists_lead_of_find? start found
  rw [whole]
  simp only [List.length_append, List.length_cons]
  omega

theorem length_settled (declarator : Declarator) : 2 ≤ declarator.settled.length := by
  simp only [settled, Qualification.settled, List.length_cons, List.length_append]
  omega

end Declarator

namespace Declaration

variable {file : SourceFile} {entry : ScopeKind} {stop : Token} {rest passed ahead : List Token}
  {known : Option Token}

theorem typeReference?_of_length_ne {live : List Token} (typeEnd : Token)
    (noFour : live.length ≠ 4) : typeReference? live typeEnd = none := by
  unfold typeReference?
  rw [if_neg (fun four => noFour four.1)]

/-- At least a name and the token that ends the statement stand ahead. -/
theorem EndsAt.length_ahead (ends : EndsAt file entry stop rest known passed ahead)
    (start : StartsDeclarator passed) : 2 ≤ ahead.length := by
  cases ends with
  | here found _ _ split =>
    have shorter := Declarator.length_ahead_lt start found
    rw [split] at shorter
    simp only [List.length_append, List.length_cons] at shorter
    omega
  | later found _ next _ =>
    have shorter := Declarator.length_ahead_lt start found
    have := length_of_nextDeclarator? next
    omega

/-- Only the last variable of a statement may have a type reference: when any
other one is read, five tokens or more are live. -/
theorem EndsAt.exists_last (isEnd : stop.kind = .punct .semicolon ∨ stop.kind = .opening .curly)
    (ends : EndsAt file entry stop rest known passed ahead) (start : StartsDeclarator passed) :
    ∃ earlier last, (readFrom file entry known passed ahead).declared = earlier ++ [last] ∧
      ∀ declared ∈ earlier, declared.typeReference = none := by
  induction ends with
  | @here known passed ahead tail declarator typeEnd found ended unstopped split =>
    have noNext : nextDeclarator? declarator.settled declarator.ahead = none := by
      rw [split, nextDeclarator?_append unstopped, nextDeclarator?_of_end isEnd]
    rw [readFrom_eq]
    simp only [found, ended, noNext]
    exact ⟨[], _, rfl, nofun⟩
  | @later known passed ahead nearer others declarator typeEnd found ended next further ih =>
    have nextStart := startsDeclarator_next next
    obtain ⟨earlier, last, declared, noReferences⟩ := ih nextStart
    have noFour : declarator.live.length ≠ 4 := by
      have := further.length_ahead nextStart
      have := length_of_nextDeclarator? next
      have := declarator.length_settled
      simp only [Declarator.live, List.length_append, List.length_reverse]
      omega
    rw [readFrom_eq]
    simp only [found, ended, next, declared]
    refine ⟨_ :: earlier, last, rfl, List.forall_mem_cons.2 ⟨?_, noReferences⟩⟩
    exact typeReference?_of_length_ne typeEnd noFour

theorem Terminated.exists_last {live : List Token}
    (terminated : Terminated file entry stop rest live) :
    ∃ earlier last, (read file entry live).declared = earlier ++ [last] ∧
      ∀ declared ∈ earlier, declared.typeReference = none := by
  rw [read_of_starts terminated.starts]
  exact terminated.ends.exists_last terminated.isEnd startsDeclarator_nil

/-- Variables without type references are the same if their names are. -/
theorem eq_of_names {found found' : List Variable}
    (noReferences : ∀ declared ∈ found, declared.typeReference = none)
    (noReferences' : ∀ declared ∈ found', declared.typeReference = none)
    (names : (found.map fun declared => (declared.name, declared.qualifiers)) =
      found'.map fun declared => (declared.name, declared.qualifiers)) : found = found' := by
  induction found generalizing found' with
  | nil => exact (List.map_eq_nil_iff.1 names.symm).symm
  | cons declared rest ih =>
    cases found' with
    | nil => cases names
    | cons declared' rest' =>
      obtain ⟨sameFirst, sameRest⟩ := List.cons.inj names
      obtain ⟨noReference, restReferences⟩ := List.forall_mem_cons.1 noReferences
      obtain ⟨noReference', restReferences'⟩ := List.forall_mem_cons.1 noReferences'
      obtain ⟨name, qualifiers, reference⟩ := declared
      obtain ⟨name', qualifiers', reference'⟩ := declared'
      simp only [Prod.mk.injEq] at sameFirst noReference noReference'
      obtain ⟨rfl, rfl⟩ := sameFirst
      rw [noReference, noReference', ih restReferences restReferences' sameRest]

theorem Terminated.replace_declared {live live' front rest' : List Token}
    (terminated : Terminated file entry stop rest live)
    (split : live = front ++ stop :: rest) (split' : live' = front ++ stop :: rest') :
    Terminated file entry stop rest' live' ∧
      (∃ kept, (read file entry live).live = kept ++ stop :: rest ∧
        (read file entry live').live = kept ++ stop :: rest') ∧
      ∃ earlier last last',
        (read file entry live).declared = earlier ++ [last] ∧
        (read file entry live').declared = earlier ++ [last'] ∧
        (last.name, last.qualifiers) = (last'.name, last'.qualifiers) := by
  obtain ⟨start, kept, named, whole, _, further⟩ := terminated.replace
  obtain rfl : start = front := by
    rw [whole] at split
    exact List.append_cancel_right split
  subst split split'
  obtain ⟨_, declared, isKept⟩ := further rest
  obtain ⟨terminated', declared', isKept'⟩ := further rest'
  obtain ⟨earlier, last, isLast, noReferences⟩ := terminated.exists_last
  obtain ⟨earlier', last', isLast', noReferences'⟩ := terminated'.exists_last
  have names := declared.trans declared'.symm
  rw [isLast, isLast', List.map_append, List.map_append] at names
  obtain ⟨sameEarlier, sameLast⟩ := List.append_inj' names rfl
  obtain rfl := eq_of_names noReferences noReferences' sameEarlier
  exact ⟨terminated', ⟨kept, isKept, isKept'⟩, earlier, last, last', isLast, isLast',
    (List.cons.inj sameLast).1⟩

end Declaration

namespace Scan

variable {σ : Type} {sink : Sink σ} {context : Context} {scopes : ScopeStack}

theorem offerAll_append (found found' : List Variable) (state : σ) :
    offerAll sink context scopes (found ++ found') state =
      offerAll sink context scopes found' (offerAll sink context scopes found state) :=
  List.foldl_append

/-- No sink can tell variables of one name apart before their tags are
committed. -/
theorem committed_last {last last' : Variable}
    (same : (last.name, last.qualifiers) = (last'.name, last'.qualifiers)) (state : σ)
    (tags : Array Tag) :
    (offerAll sink.recorded context scopes [last] (state, tags)).2.map Tag.withoutTypeReference =
      (offerAll sink.recorded context scopes [last'] (state, tags)).2.map
        Tag.withoutTypeReference := by
  have sameOffer : context.offered scopes last = context.offered scopes last' :=
    Context.offered_eq rfl same
  simp only [Context.offered] at sameOffer
  simp only [offerAll, List.foldl_cons, List.foldl_nil, offerTo, Sink.recorded, sameOffer]
  cases (sink.start state (context.offer (enterQualifiers scopes last'.qualifiers) last')).1 with
  | none => rfl
  | some tag => simp [Tag.withoutTypeReference]

end Scan

namespace Chain

/-- A scan that ends at a semicolon or an opening curly bracket reads nothing
behind it.  Whatever stands there, at least one variable is found, the same
offers are made in the same scopes, the same tokens stay live before the end,
and the tags committed to any sink differ in type references alone. -/
theorem scan_replace {σ : Type} {file : SourceFile} {storage : Storage} {scopes : ScopeStack}
    {chain chain' : Chain} {stop : Token} {front rest rest' : List Token}
    (terminated : Declaration.Terminated file scopes.currentKind stop rest chain.live)
    (live : chain.live = front ++ stop :: rest) (live' : chain'.live = front ++ stop :: rest')
    (sink : Sink σ) (state : σ) :
    Declaration.Terminated file scopes.currentKind stop rest' chain'.live ∧
      (chain.scan sink file storage scopes state).found = true ∧
      (chain'.scan sink file storage scopes state).found = true ∧
      chain.offers sink file storage scopes state = chain'.offers sink file storage scopes state ∧
      (∃ kept, (chain.scan sink file storage scopes state).chain.live = kept ++ stop :: rest ∧
        (chain'.scan sink file storage scopes state).chain.live = kept ++ stop :: rest') ∧
      (chain.scan sink file storage scopes state).scopes = scopes ∧
      (chain'.scan sink file storage scopes state).scopes = scopes ∧
      (chain.committed sink file storage scopes state).map Tag.withoutTypeReference =
        (chain'.committed sink file storage scopes state).map Tag.withoutTypeReference := by
  obtain ⟨terminated', isKept, earlier, last, last', isLast, isLast', same⟩ :=
    terminated.replace_declared live live'
  refine ⟨terminated', ?_, ?_, ?_, isKept, scopes_scan .., scopes_scan .., ?_⟩
  · rw [found_scan, isLast]
    simp
  · rw [found_scan, isLast']
    simp
  · rw [offers_eq, offers_eq, isLast, isLast', List.map_append, List.map_append, List.map_singleton,
      List.map_singleton, Scan.Context.offered_eq rfl same]
  · -- all but the last variable leave the same state behind
    rw [committed, committed, state_scan, state_scan, isLast, isLast', Scan.offerAll_append,
      Scan.offerAll_append, ← Array.toList_map, ← Array.toList_map]
    exact congrArg Array.toList (Scan.committed_last same _ _)

def recordLexemes : List Lexeme :=
  [⟨.word, "struct", .ofLength 0 6⟩, ⟨.word, "X", .ofLength 7 1⟩, ⟨.word, "y", .ofLength 9 1⟩,
    ⟨.punct .semicolon, ";", .ofLength 10 1⟩]

def bracketLexemes : List Lexeme :=
  [⟨.closing .angle, ">", .ofLength 12 1⟩, ⟨.closing .round, ")", .ofLength 13 1⟩]

def recordChain (following : List Lexeme) : Chain :=
  .ofLexemes .cpp ⟨[]⟩ (recordLexemes ++ following)

def recordType : List Token :=
  [⟨0, .keyword .kwStruct, "struct", .ofLength 0 6, ⟨0, 0⟩, []⟩,
    ⟨1, .identifier, "X", .ofLength 7 1, ⟨0, 7⟩, []⟩]

def recordName : Token := ⟨2, .identifier, "y", .ofLength 9 1, ⟨0, 9⟩, []⟩

def recordStop : Token := ⟨3, .punct .semicolon, ";", .ofLength 10 1, ⟨0, 10⟩, []⟩

theorem live_recordChain :
    (recordChain []).live = (recordType ++ [recordName]) ++ recordStop :: [] := rfl

theorem live_recordChain_brackets :
    (recordChain bracketLexemes).live =
      (recordType ++ [recordName]) ++ recordStop :: (recordChain bracketLexemes).live.drop 4 := rfl

theorem terminated_recordChain :
    Declaration.Terminated ⟨.cpp, false⟩ .inNamespace recordStop [] (recordChain []).live := by
  have isType : IsType recordType :=
    { pieces := .token rfl (.token rfl .nil)
      ends := by simp [recordType]
      starts := ⟨_, rfl, .inr ⟨.kwStruct, rfl⟩⟩ }
  have shape : DeclaratorShape ⟨.cpp, false⟩ .inNamespace [] [recordName] recordName :=
    .bare nofun rfl
  exact Declaration.terminated_of_shape isType shape (.inl rfl) []

theorem scan_replace_recordChain :
    Declaration.Terminated ⟨.cpp, false⟩ .inNamespace recordStop [] (recordChain []).live ∧
      (recordChain []).live = (recordType ++ [recordName]) ++ recordStop :: [] ∧
      (recordChain bracketLexemes).live =
        (recordType ++ [recordName]) ++ recordStop :: (recordChain bracketLexemes).live.drop 4 ∧
      ((recordChain []).committed Collector.sink ⟨.cpp, false⟩ ⟨false, false⟩ .empty
          (.empty TagKind.all)).map Tag.withoutTypeReference =
        ((recordChain bracketLexemes).committed Collector.sink ⟨.cpp, false⟩ ⟨false, false⟩ .empty
          (.empty TagKind.all)).map Tag.withoutTypeReference ∧
      ((recordChain []).committed Collector.sink ⟨.cpp, false⟩ ⟨false, false⟩ .empty
          (.empty TagKind.all)).map Tag.typeReference = [some ⟨"struct", "X"⟩] ∧
      ((recordChain bracketLexemes).committed Collector.sink ⟨.cpp, false⟩ ⟨false, false⟩ .empty
          (.empty TagKind.all)).map Tag.typeReference = [none] := by
  obtain ⟨_, _, _, _, _, _, _, alike⟩ := @scan_replace _ ⟨.cpp, false⟩ ⟨false, false⟩ .empty _ _ _ _
    _ _ terminated_recordChain live_recordChain live_recordChain_brackets Collector.sink
    (.empty TagKind.all)
  refine ⟨terminated_recordChain, live_recordChain, live_recordChain_brackets, alike, ?_, ?_⟩
  · decide +kernel
  · decide +kernel

end Chain

end DeclScan
