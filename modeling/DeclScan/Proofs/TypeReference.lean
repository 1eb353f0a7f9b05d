import Mathlib
import DeclScan.Proofs.Identity
import DeclScan.Proofs.Lookahead

/-!
# Type references

A type reference is looked up in the live tokens at the time when a declarator
has been found, with the token that was remembered as the end of the type.
`Found` are the declarators that reading comes to, and what all of them keep is
that the remembered token is still live.  The main statement is
`Chain.scan_typeReference`: only a statement of four tokens has a type
reference, and then it declares one variable without qualifiers.
-/

set_option autoImplicit false

namespace DeclScan

/-- Four tokens: a keyword that introduces types, the name of the type, and the
declared name before the last token, or nested in a group before a parameter
list. -/
structure RefersToType (file : SourceFile) (entry : ScopeKind) (live : List Token)
    (keyword name : Token) : Prop where
  isKeyword : keyword.kind ∈
    [.keyword .kwStruct, .keyword .kwUnion, .keyword .kwClass, .keyword .kwEnum]
  isName : name.kind = .identifier
  shape : ∃ third fourth, live = [keyword, name, third, fourth] ∧
    (Ending file entry [third] fourth [] third ∨
      ∃ nested, Ending file entry [] third [fourth] nested)

/-- The declarators that reading finds in the live tokens, each with the token
that is remembered as the end of the type. -/
inductive Declarator.Found (file : SourceFile) (entry : ScopeKind) (live : List Token) :
    Declarator → Token → Prop where
  | first {declarator : Declarator} {typeEnd : Token} :
      (∃ token ∈ live.head?, token.kind.isWord = true) →
      find? file entry [] live = some declarator →
      Declaration.typeEnd? none declarator = some typeEnd →
      Found file entry live declarator typeEnd
  | next {declarator other : Declarator} {typeEnd : Token} {nearer others : List Token} :
      Found file entry live declarator typeEnd →
      nextDeclarator? declarator.settled declarator.ahead = some (nearer, others) →
      find? file entry nearer others = some other →
      Found file entry live other typeEnd

theorem Keyword.introducesType_iff {keyword : Keyword} :
    keyword.introducesType = true ↔ TokenKind.keyword keyword ∈
      [.keyword .kwStruct, .keyword .kwUnion, .keyword .kwClass, .keyword .kwEnum] := by
  cases keyword <;> decide

/-! ## Declarators that are found -/

theorem Qualification.settled_sublist (qualification : Qualification) :
    qualification.settled.Sublist qualification.tokens := by
  refine List.Sublist.append_right ?_ _
  induction qualification.qualifiers with
  | nil => exact .slnil
  | cons qualifier rest ih => exact (ih.cons qualifier.name).cons_cons qualifier.colons

namespace Declarator

variable {file : SourceFile} {entry : ScopeKind} {live passed ahead : List Token}
  {declarator : Declarator} {typeEnd : Token}

theorem exists_settled_of_find? (start : StartsDeclarator passed)
    (found : find? file entry passed ahead = some declarator) :
    ∃ since, declarator.settled = declarator.site.holder :: since ++ passed := by
  obtain ⟨lead, _, isLead⟩ := exists_lead_of_find? start found
  refine ⟨declarator.qualification.qualifiers.map Qualifier.colons ++ lead.reverse, ?_⟩
  simp [settled, Qualification.settled, isLead]

/-- A token follows the holder of the name: the notable one, or the parameter
list of a function pointer. -/
theorem ahead_ne_nil (start : StartsDeclarator passed)
    (found : find? file entry passed ahead = some declarator) : declarator.ahead ≠ [] := by
  obtain ⟨_, held, notable, after, _, _, ending, holder, _⟩ := (find?_iff_ending start).1 found
  cases ending with
  | plain =>
    rw [(List.cons.inj holder).2]
    simp
  | arguments =>
    rw [(List.cons.inj holder).2]
    simp
  | pointer shape =>
    obtain ⟨next, isNext, _⟩ := shape.parameters
    rw [(List.cons.inj holder).2]
    rintro rfl
    cases isNext

theorem live_sublist_of_find? (found : find? file entry passed ahead = some declarator) :
    declarator.live.Sublist (passed.reverse ++ ahead) := by
  rw [← tokens_of_find? found]
  simpa [live, settled, tokens] using
    declarator.qualification.settled_sublist.reverse.append_right
      (declarator.site.holder :: declarator.ahead)

theorem reverse_append_of_next {nearer others : List Token}
    (next : nextDeclarator? passed ahead = some (nearer, others)) :
    nearer.reverse ++ others = passed.reverse ++ ahead := by
  obtain ⟨pending, _, rfl, rfl⟩ := nextDeclarator?_pending next
  simp

theorem typeEnd_of_typeEnd? (ended : Declaration.typeEnd? none declarator = some typeEnd) :
    declarator.qualification.typeEnd = typeEnd := by
  simp only [Declaration.typeEnd?, Option.ite_none_right_eq_some, Option.some.injEq] at ended
  exact ended.2

namespace Found

/-- Reading takes tokens out of the live ones and never adds any. -/
theorem live_sublist (found : Found file entry live declarator typeEnd) :
    declarator.live.Sublist live := by
  induction found with
  | first _ isFirst _ => exact live_sublist_of_find? isFirst
  | next _ next isNext ih =>
    have fewer := live_sublist_of_find? isNext
    rw [reverse_append_of_next next] at fewer
    exact fewer.trans ih

/-- The remembered end of the type is never taken out: it was passed when the
first declarator was found, and what was passed stays. -/
theorem typeEnd_mem (found : Found file entry live declarator typeEnd) :
    typeEnd ∈ declarator.live := by
  have settled : typeEnd ∈ declarator.settled := by
    induction found with
    | @first declarator typeEnd _ _ ended =>
      obtain rfl := typeEnd_of_typeEnd? ended
      simp [settled, Qualification.settled]
    | next _ next isNext ih =>
      obtain ⟨since, isSettled⟩ := exists_settled_of_find? (startsDeclarator_next next) isNext
      obtain ⟨pending, _, isNearer, _⟩ := nextDeclarator?_pending next
      rw [isSettled, isNearer]
      simp [ih]
  exact List.mem_append_left _ (List.mem_reverse.2 settled)

end Found

/-- When a further declarator is found, at least five tokens are live: two for
the one before, a comma, the holder of the name, and one behind it. -/
theorem five_le_of_next {nearer others : List Token} {other : Declarator}
    (next : nextDeclarator? declarator.settled declarator.ahead = some (nearer, others))
    (isNext : find? file entry nearer others = some other) : 5 ≤ other.live.length := by
  have start := startsDeclarator_next next
  obtain ⟨since, isSettled⟩ := exists_settled_of_find? start isNext
  obtain ⟨pending, some, isNearer, _⟩ := nextDeclarator?_pending next
  have pendingSome := List.length_pos_iff.2 some
  have aheadSome := List.length_pos_iff.2 (ahead_ne_nil start isNext)
  have lengthSettled := declarator.length_settled
  simp only [Declarator.live, isSettled, isNearer, List.length_append, List.length_cons,
    List.length_reverse]
  omega

theorem Found.find?_of_few (found : Found file entry live declarator typeEnd)
    (few : live.length < 5) :
    find? file entry [] live = some declarator ∧
      declarator.qualification.typeEnd = typeEnd := by
  cases found with
  | first _ isFound ended => exact ⟨isFound, typeEnd_of_typeEnd? ended⟩
  | next earlier next isNext =>
    have many := five_le_of_next next isNext
    have fewer := (Found.next earlier next isNext).live_sublist.length_le
    omega

end Declarator

/-! ## What reading looks up -/

namespace Declaration

variable {file : SourceFile} {entry : ScopeKind} {live : List Token}

/-- Each variable has the type reference that is looked up when its declarator
is found. -/
theorem readFrom_found {known : Option Token} {passed ahead : List Token}
    (reaches : ∀ {declarator : Declarator} {typeEnd : Token},
      Declarator.find? file entry passed ahead = some declarator →
      typeEnd? known declarator = some typeEnd →
      Declarator.Found file entry live declarator typeEnd) :
    ∀ declared ∈ (readFrom file entry known passed ahead).declared,
      ∃ declarator typeEnd, Declarator.Found file entry live declarator typeEnd ∧
        declared = ⟨declarator.name, declarator.qualifiers,
          typeReference? declarator.live typeEnd⟩ := by
  fun_induction readFrom file entry known passed ahead with
  | case1 =>
    intro declared member
    exact absurd member List.not_mem_nil
  | case2 =>
    intro declared member
    exact absurd member List.not_mem_nil
  | case3 known passed ahead declarator isFound typeEnd ended =>
    intro declared member
    obtain rfl := List.mem_singleton.1 member
    exact ⟨declarator, typeEnd, reaches isFound ended, rfl⟩
  | case4 known passed ahead declarator isFound typeEnd ended _ nearer others next =>
    rename_i ih
    have found := reaches isFound ended
    intro declared member
    rcases List.mem_cons.1 member with rfl | further
    · exact ⟨declarator, typeEnd, found, rfl⟩
    · refine ih ?_ declared further
      intro other end' isNext remembered
      obtain rfl := Option.some.inj remembered
      exact .next found next isNext

theorem read_found : ∀ declared ∈ (read file entry live).declared,
    ∃ declarator typeEnd, Declarator.Found file entry live declarator typeEnd ∧
      declared = ⟨declarator.name, declarator.qualifiers,
        typeReference? declarator.live typeEnd⟩ := by
  intro declared member
  obtain ⟨starts, _⟩ := read_declares_iff.1 (List.ne_nil_of_mem member)
  rw [read_of_starts starts] at member
  exact readFrom_found (fun isFound ended => .first starts isFound ended) declared member

theorem five_le_of_two (two : 2 ≤ (read file entry live).declared.length) : 5 ≤ live.length := by
  have some : (read file entry live).declared ≠ [] := List.ne_nil_of_length_pos (by omega)
  obtain ⟨starts, _⟩ := read_declares_iff.1 some
  rw [read_of_starts starts, readFrom_eq] at two
  split at two
  · simp at two
  · rename_i declarator isFound
    split at two
    · simp at two
    · rename_i typeEnd ended
      split at two
      · simp at two
      · rename_i nearer others next
        have further : (readFrom file entry (Option.some typeEnd) nearer others).declared ≠ [] :=
          List.ne_nil_of_length_pos (by simp only [List.length_cons] at two; omega)
        rw [readFrom_eq] at further
        cases isNext : Declarator.find? file entry nearer others with
        | none => simp [isNext] at further
        | some other =>
          have found : Declarator.Found file entry live other typeEnd :=
            .next (.first starts isFound ended) next isNext
          exact (Declarator.five_le_of_next next isNext).trans found.live_sublist.length_le

theorem typeReference?_eq_some_iff {typeEnd : Token} {reference : TypeReference} :
    typeReference? live typeEnd = some reference ↔
      live.length = 4 ∧ typeEnd.kind = .identifier ∧
        ∃ place token,
          live.findIdx? (fun other => other.id = typeEnd.id) = some (place + 1) ∧
          live[place]? = some token ∧
          token.kind ∈
            [.keyword .kwStruct, .keyword .kwUnion, .keyword .kwClass, .keyword .kwEnum] ∧
          reference = ⟨token.text, typeEnd.text⟩ := by
  constructor
  · intro looked
    unfold typeReference? at looked
    split at looked
    · rename_i shape
      split at looked
      · rename_i place isPlace
        split at looked
        · rename_i token isToken
          split at looked
          · rename_i keyword isKeyword
            split at looked
            · rename_i introduces
              obtain rfl := Option.some.inj looked
              refine ⟨shape.1, shape.2, place, token, isPlace, isToken, ?_, rfl⟩
              rw [isKeyword]
              exact Keyword.introducesType_iff.1 introduces
            · cases looked
          · cases looked
        · cases looked
      · cases looked
    · cases looked
  · rintro ⟨four, isName, place, token, isPlace, isToken, isKeyword, rfl⟩
    obtain ⟨keyword, isKind⟩ : ∃ keyword, token.kind = .keyword keyword := by
      simp only [List.mem_cons, List.not_mem_nil, or_false] at isKeyword
      rcases isKeyword with is | is | is | is <;> exact ⟨_, is⟩
    have introduces := Keyword.introducesType_iff.2 (isKind ▸ isKeyword)
    simp [typeReference?, four, isName, isPlace, isToken, isKind, introduces]

theorem place_le_of_findIdx? {front rest : List Token} {typeEnd : Token} {place : Nat}
    (isPlace : (front ++ typeEnd :: rest).findIdx? (fun other => other.id = typeEnd.id) =
      some place) : place ≤ front.length := by
  obtain ⟨_, _, first⟩ := List.findIdx?_eq_some_iff_getElem.1 isPlace
  by_contra behind
  have own := first front.length (by omega)
  simp at own

/-- A type reference leaves no place for qualifiers: the keyword and the name of
the type, the holder of the declared name, and what follows it are all that is
live. -/
theorem refersToType_of_typeReference? {declarator : Declarator} {reference : TypeReference}
    (isFound : Declarator.find? file entry [] live = some declarator)
    (looked : typeReference? declarator.live declarator.qualification.typeEnd =
      some reference) :
    declarator.qualifiers = [] ∧ ∃ keyword name, RefersToType file entry live keyword name ∧
      reference = ⟨keyword.text, name.text⟩ := by
  have whole := Declarator.tokens_of_find? isFound
  obtain ⟨_, held, notable, after, _, _, ending, holder, _⟩ :=
    (Declarator.find?_iff_ending startsDeclarator_nil).1 isFound
  have aheadSome := List.length_pos_iff.2 (Declarator.ahead_ne_nil startsDeclarator_nil isFound)
  obtain ⟨⟨declared, third, _, ahead⟩, ⟨qualifiers, typeEnd, before⟩⟩ := declarator
  simp only [Declarator.live, Declarator.settled, Qualification.settled, Declarator.ahead,
    List.reverse_cons, List.reverse_append, List.append_assoc, List.singleton_append]
    at looked aheadSome holder
  obtain ⟨four, isName, place, keyword, isPlace, isToken, isKeyword, rfl⟩ :=
    typeReference?_eq_some_iff.1 looked
  have nearFront := place_le_of_findIdx? isPlace
  simp only [List.length_append, List.length_cons, List.length_reverse, List.length_map]
    at four nearFront
  -- four tokens, of which one precedes the end of the type and one follows the holder
  obtain ⟨one, none, oneAhead, atFront⟩ :
      before.length = 1 ∧ qualifiers.length = 0 ∧ ahead.length = 1 ∧ place = 0 := by omega
  obtain ⟨only, rfl⟩ := List.length_eq_one_iff.1 one
  obtain rfl := List.length_eq_zero_iff.1 none
  obtain ⟨fourth, rfl⟩ := List.length_eq_one_iff.1 oneAhead
  subst atFront
  obtain rfl : only = keyword := by simpa using isToken
  refine ⟨rfl, only, typeEnd, ⟨isKeyword, isName, third, fourth, ?_, ?_⟩, rfl⟩
  · simpa [Declarator.tokens, Qualification.tokens, Declarator.ahead] using whole.symm
  · cases ending with
    | plain isIdentifier isEnd =>
      obtain ⟨rfl, rest⟩ := List.cons.inj holder
      obtain ⟨rfl, rfl⟩ := List.cons.inj rest
      exact .inl (.plain isIdentifier isEnd)
    | arguments isIdentifier isGroup noPointer isCpp inside accepted =>
      obtain ⟨rfl, rest⟩ := List.cons.inj holder
      obtain ⟨rfl, rfl⟩ := List.cons.inj rest
      exact .inl (.arguments isIdentifier isGroup noPointer isCpp inside accepted)
    | pointer shape =>
      obtain ⟨rfl, rfl⟩ := List.cons.inj holder
      exact .inr ⟨_, .pointer shape⟩

end Declaration

/-! ## Statements that refer to a type -/

namespace RefersToType

variable {file : SourceFile} {entry : ScopeKind} {live : List Token} {keyword name : Token}

theorem four (refers : RefersToType file entry live keyword name) : live.length = 4 := by
  obtain ⟨_, _, third, fourth, rfl, _⟩ := refers
  rfl

theorem starts (refers : RefersToType file entry live keyword name) :
    ∃ token ∈ live.head?, token.kind.isWord = true := by
  obtain ⟨isKeyword, _, third, fourth, rfl, _⟩ := refers
  refine ⟨keyword, rfl, ?_⟩
  simp only [List.mem_cons, List.not_mem_nil, or_false] at isKeyword
  rcases isKeyword with is | is | is | is <;> rw [is] <;> rfl

theorem passable (refers : RefersToType file entry live keyword name) :
    ∀ token ∈ [keyword, name], token.kind.isPassable = true := by
  have isKeyword := refers.isKeyword
  simp only [List.mem_cons, List.not_mem_nil, or_false, forall_eq_or_imp, forall_eq,
    refers.isName] at isKeyword ⊢
  refine ⟨?_, rfl⟩
  rcases isKeyword with is | is | is | is <;> rw [is] <;> rfl

/-- The declarator is found behind the type, and has no qualifiers. -/
theorem exists_find? (refers : RefersToType file entry live keyword name) :
    ∃ declarator, Declarator.find? file entry [] live = some declarator ∧
      declarator.qualification.typeEnd = name ∧ declarator.qualifiers = [] ∧
      declarator.live = live := by
  have passable := refers.passable
  obtain ⟨_, isName, third, fourth, rfl, shape⟩ := refers
  have noColons : name.kind ≠ .punct .doubleColon := by simp [isName]
  have noPairs : ∀ qualifier ∈ ([] : List Qualifier), qualifier.IsPair := nofun
  have preceding : [keyword, name].reverse ++ [] = name :: [keyword] := rfl
  rcases shape with ending | ⟨nested, ending⟩
  · have isHeld : third.kind = .identifier := by
      cases ending with
      | plain isIdentifier => exact isIdentifier
      | arguments isIdentifier => exact isIdentifier
    have pieces : Pieces TokenKind.isPassable
        ([keyword, name] ++ ([] : List Qualifier).flatMap Qualifier.tokens ++ [third]) := by
      refine (Pieces.of_forall passable).append (.token ?_ .nil)
      rw [isHeld]
      rfl
    exact ⟨_, Declarator.find?_of_ending startsDeclarator_nil pieces ending rfl noPairs preceding
      noColons, rfl, rfl, rfl⟩
  · have pieces : Pieces TokenKind.isPassable
        ([keyword, name] ++ ([] : List Qualifier).flatMap Qualifier.tokens ++ []) :=
      .of_forall passable
    exact ⟨_, Declarator.find?_of_ending startsDeclarator_nil pieces ending rfl noPairs preceding
      noColons, rfl, rfl, rfl⟩

/-- The type is looked up where it stands, since no other token has the identity
of its name. -/
theorem typeReference? (refers : RefersToType file entry live keyword name)
    (distinct : (live.map Token.id).Nodup) :
    Declaration.typeReference? live name = some ⟨keyword.text, name.text⟩ := by
  rw [Declaration.typeReference?_eq_some_iff]
  refine ⟨refers.four, refers.isName, 0, keyword, ?_, ?_, refers.isKeyword, rfl⟩
  · obtain ⟨_, _, third, fourth, rfl, _⟩ := refers
    have other : keyword.id ≠ name.id := by
      simp only [List.map_cons, List.nodup_cons, List.mem_cons, not_or] at distinct
      exact distinct.1.1
    simp [List.findIdx?_cons, other]
  · obtain ⟨_, _, third, fourth, rfl, _⟩ := refers
    rfl

end RefersToType

namespace Declaration

variable {file : SourceFile} {entry : ScopeKind} {live : List Token}

theorem typeReference_iff_refersToType (distinct : (live.map Token.id).Nodup)
    {declared : Variable} (member : declared ∈ (read file entry live).declared)
    (reference : TypeReference) :
    declared.typeReference = some reference ↔
      ∃ keyword name, RefersToType file entry live keyword name ∧
        reference = ⟨keyword.text, name.text⟩ := by
  obtain ⟨declarator, typeEnd, found, rfl⟩ := read_found declared member
  constructor
  · intro looked
    have four := (typeReference?_eq_some_iff.1 looked).1
    cases found with
    | first _ isFound ended =>
      obtain rfl := Declarator.typeEnd_of_typeEnd? ended
      exact (refersToType_of_typeReference? isFound looked).2
    | next _ next isNext =>
      have many := Declarator.five_le_of_next next isNext
      omega
  · rintro ⟨keyword, name, refers, rfl⟩
    obtain ⟨isFound, isEnd⟩ := found.find?_of_few (by rw [refers.four]; decide)
    obtain ⟨_, isFound', isName, _, isLive⟩ := refers.exists_find?
    obtain rfl := Option.some.inj (isFound.symm.trans isFound')
    rw [← isEnd, isName, isLive]
    exact refers.typeReference? distinct

theorem declared_of_refersToType {keyword name : Token}
    (refers : RefersToType file entry live keyword name) :
    ∃ declared, (read file entry live).declared = [declared] ∧ declared.qualifiers = [] := by
  obtain ⟨declarator, isFound, isName, unqualified, _⟩ := refers.exists_find?
  have ends : TypeEnding declarator.qualification.typeEnd.kind := by
    rw [isName]
    exact .inl refers.isName
  have some : (read file entry live).declared ≠ [] :=
    read_declares_iff.2 ⟨refers.starts, readFrom_declares_iff.2 ⟨declarator, isFound, ends⟩⟩
  have single : (read file entry live).declared.length = 1 := by
    have := List.length_pos_iff.2 some
    have : ¬ 2 ≤ (read file entry live).declared.length := by
      intro two
      have many := five_le_of_two two
      rw [refers.four] at many
      omega
    omega
  obtain ⟨declared, isOnly⟩ := List.length_eq_one_iff.1 single
  refine ⟨declared, isOnly, ?_⟩
  obtain ⟨other, typeEnd, found, rfl⟩ := read_found declared (by rw [isOnly]; simp)
  obtain ⟨isFound', _⟩ := found.find?_of_few (by rw [refers.four]; decide)
  obtain rfl := Option.some.inj (isFound.symm.trans isFound')
  exact unqualified

end Declaration

/-! ## Committed tags -/

def Sink.Accepting {σ : Type} (sink : Sink σ) : Prop :=
  ∀ state offer, (sink.start state offer).1.isSome = true

/-- The committed tags have the type references of the variables for which the
sink starts a tag. -/
theorem Scan.typeReference_offerAll {σ : Type} (sink : Sink σ) (context : Context)
    (scopes : ScopeStack) (found : List Variable) (state : σ) (tags : Array Tag) :
    ∃ kept, kept.Sublist found ∧ (sink.Accepting → kept = found) ∧
      (offerAll sink.recorded context scopes found (state, tags)).2.toList.map Tag.typeReference =
        tags.toList.map Tag.typeReference ++ kept.map Variable.typeReference := by
  induction found generalizing state tags with
  | nil => exact ⟨[], .slnil, fun _ => rfl, by simp [offerAll]⟩
  | cons declared rest ih =>
    have step : offerAll sink.recorded context scopes (declared :: rest) (state, tags) =
        offerAll sink.recorded context scopes rest
          (offerTo sink.recorded context (enterQualifiers scopes declared.qualifiers) declared
            (state, tags)) := rfl
    rw [step]
    cases answer : sink.start state
        (context.offer (enterQualifiers scopes declared.qualifiers) declared) with
    | mk tag? next =>
      cases tag? with
      | none =>
        obtain ⟨kept, isSublist, _, isKept⟩ := ih next tags
        refine ⟨kept, isSublist.cons declared, ?_, ?_⟩
        · intro accepting
          have started := accepting state
            (context.offer (enterQualifiers scopes declared.qualifiers) declared)
          rw [answer] at started
          cases started
        · simpa [offerTo, Sink.recorded, answer] using isKept
      | some tag =>
        obtain ⟨kept, isSublist, isAll, isKept⟩ :=
          ih (sink.commit next (context.complete declared tag))
            (tags.push (context.complete declared tag))
        refine ⟨declared :: kept, isSublist.cons_cons declared, ?_, ?_⟩
        · intro accepting
          rw [isAll accepting]
        · simpa [offerTo, Sink.recorded, answer, Context.complete] using isKept

namespace Chain

variable {σ : Type} (sink : Sink σ) (file : SourceFile) (storage : Storage) {chain : Chain}
  (scopes : ScopeStack) (state : σ)

theorem typeReference_committed :
    ∃ kept, kept.Sublist (Declaration.read file scopes.currentKind chain.live).declared ∧
      (sink.Accepting → kept = (Declaration.read file scopes.currentKind chain.live).declared) ∧
      (chain.committed sink file storage scopes state).map Tag.typeReference =
        kept.map Variable.typeReference := by
  rw [committed, state_scan]
  exact Scan.typeReference_offerAll sink ⟨file, storage, scopes.currentKind⟩ scopes _ state #[]

theorem typeReference_iff_refersToType (distinct : (chain.live.map Token.id).Nodup) {tag : Tag}
    (member : tag ∈ chain.committed sink file storage scopes state) (reference : TypeReference) :
    tag.typeReference = some reference ↔
      ∃ keyword name, RefersToType file scopes.currentKind chain.live keyword name ∧
        reference = ⟨keyword.text, name.text⟩ := by
  obtain ⟨kept, isSublist, _, references⟩ :=
    @typeReference_committed _ sink file storage chain scopes state
  have isReference := List.mem_map_of_mem (f := Tag.typeReference) member
  rw [references] at isReference
  obtain ⟨declared, isKept, same⟩ := List.mem_map.1 isReference
  rw [← same]
  exact Declaration.typeReference_iff_refersToType distinct (isSublist.subset isKept) reference

theorem committed_of_refersToType {keyword name : Token}
    (refers : RefersToType file scopes.currentKind chain.live keyword name) :
    (∃ offer, chain.offers sink file storage scopes state = [offer] ∧ offer.scopes = scopes) ∧
      (chain.committed sink file storage scopes state).length ≤ 1 ∧
      (sink.Accepting → (chain.committed sink file storage scopes state).length = 1) := by
  obtain ⟨declared, isOnly, unqualified⟩ := Declaration.declared_of_refersToType refers
  obtain ⟨kept, isSublist, isAll, references⟩ :=
    @typeReference_committed _ sink file storage chain scopes state
  have lengths := congrArg List.length references
  simp only [List.length_map] at lengths
  refine ⟨?_, ?_, ?_⟩
  · rw [offers_eq, isOnly]
    refine ⟨_, rfl, ?_⟩
    rw [Scan.Context.offered, unqualified]
    rfl
  · have fewer := isSublist.length_le
    rw [isOnly, List.length_singleton] at fewer
    omega
  · intro accepting
    rw [lengths, isAll accepting, isOnly]
    rfl

/-- A committed tag has a type reference exactly if the live tokens are a
keyword that introduces types, a name, and a declarator of two tokens; then it
is the only tag of the scan, without qualifiers.  So no tag has a type reference
where a second variable or a qualified one is offered.  The token remembered as
the end of the type is still live whenever it is looked up. -/
theorem scan_typeReference (reached : Reached chain) :
    (∀ tag ∈ chain.committed sink file storage scopes state, ∀ reference : TypeReference,
      tag.typeReference = some reference ↔
        ∃ keyword name, RefersToType file scopes.currentKind chain.live keyword name ∧
          reference = ⟨keyword.text, name.text⟩) ∧
      (∀ tag ∈ chain.committed sink file storage scopes state, tag.typeReference ≠ none →
        chain.committed sink file storage scopes state = [tag] ∧
          ∃ offer, chain.offers sink file storage scopes state = [offer] ∧
            offer.scopes = scopes) ∧
      (∀ keyword name, RefersToType file scopes.currentKind chain.live keyword name →
        sink.Accepting →
          ∃ tag, chain.committed sink file storage scopes state = [tag] ∧
            tag.typeReference = some ⟨keyword.text, name.text⟩) ∧
      (2 ≤ (chain.offers sink file storage scopes state).length ∨
          (∃ offer ∈ chain.offers sink file storage scopes state, offer.scopes ≠ scopes) →
        ∀ tag ∈ chain.committed sink file storage scopes state, tag.typeReference = none) ∧
      ∀ declarator typeEnd,
        Declarator.Found file scopes.currentKind chain.live declarator typeEnd →
        ∃ place, Chain.placeOf? { chain with live := declarator.live } typeEnd.id = some place ∧
          declarator.live[place]? = some typeEnd := by
  have distinct := reached.sound.distinct
  have characterized {tag : Tag}
      (member : tag ∈ chain.committed sink file storage scopes state)
      (reference : TypeReference) :=
    typeReference_iff_refersToType sink file storage scopes state distinct member reference
  -- what holds where a committed tag has a reference
  have single : ∀ tag ∈ chain.committed sink file storage scopes state,
      tag.typeReference ≠ none →
        chain.committed sink file storage scopes state = [tag] ∧
          ∃ offer, chain.offers sink file storage scopes state = [offer] ∧
            offer.scopes = scopes := by
    intro tag member refersTo
    obtain ⟨reference, isReference⟩ := Option.ne_none_iff_exists'.1 refersTo
    obtain ⟨keyword, name, refers, _⟩ := (characterized member reference).1 isReference
    obtain ⟨offered, few, _⟩ := committed_of_refersToType sink file storage scopes state refers
    have some := List.length_pos_of_mem member
    obtain ⟨only, isOnly⟩ := List.length_eq_one_iff.1 (Nat.le_antisymm few some)
    rw [isOnly, List.mem_singleton] at member
    exact ⟨member ▸ isOnly, offered⟩
  refine ⟨fun tag member => characterized member, single, ?_, ?_, ?_⟩
  · intro keyword name refers accepting
    obtain ⟨_, _, one⟩ := committed_of_refersToType sink file storage scopes state refers
    obtain ⟨tag, isOnly⟩ := List.length_eq_one_iff.1 (one accepting)
    refine ⟨tag, isOnly, ?_⟩
    exact (characterized (by rw [isOnly]; simp) _).2 ⟨keyword, name, refers, rfl⟩
  · intro several tag member
    by_contra refersTo
    obtain ⟨_, offer, isOnly, unqualified⟩ := single tag member refersTo
    rw [isOnly] at several
    rcases several with two | ⟨other, isOffered, qualified⟩
    · simp at two
    · rw [List.mem_singleton] at isOffered
      exact qualified (isOffered ▸ unqualified)
  · intro declarator typeEnd found
    obtain ⟨place, isPlace⟩ := List.mem_iff_getElem?.1 found.typeEnd_mem
    have stillDistinct : (declarator.live.map Token.id).Nodup :=
      distinct.sublist (found.live_sublist.map Token.id)
    refine ⟨place, (placeOf?_eq_some_iff stillDistinct).2 ?_, isPlace⟩
    rw [get?, isPlace]
    rfl

def unionText : String := "union U (*f)(int)"

def unionLexemes : List Lexeme :=
  [⟨.word, "union", .ofLength 0 5⟩, ⟨.word, "U", .ofLength 6 1⟩,
    ⟨.opening .round, "(", .ofLength 8 1⟩, ⟨.punct .star, "*", .ofLength 9 1⟩,
    ⟨.word, "f", .ofLength 10 1⟩, ⟨.closing .round, ")", .ofLength 11 1⟩,
    ⟨.opening .round, "(", .ofLength 12 1⟩, ⟨.word, "int", .ofLength 13 3⟩,
    ⟨.closing .round, ")", .ofLength 16 1⟩]

def unionChain : Chain := .ofLexemes .cpp ⟨[]⟩ unionLexemes

theorem tokenize_unionText : tokenize unionText .cpp = .ok unionChain := by
  have read : lex unionText = .ok unionLexemes := by cbv
  simp only [tokenize, read]
  rfl

theorem refersToType_unionChain :
    RefersToType ⟨.cpp, false⟩ .inNamespace unionChain.live
      ⟨0, .keyword .kwUnion, "union", .ofLength 0 5, ⟨0, 0⟩, []⟩
      ⟨1, .identifier, "U", .ofLength 6 1, ⟨0, 6⟩, []⟩ where
  isKeyword := by decide
  isName := rfl
  shape := ⟨_, _, rfl, .inr ⟨_, .pointer ⟨rfl, ⟨_, rfl, rfl, by decide +kernel⟩, rfl⟩⟩⟩

theorem scan_typeReference_unionText :
    tokenize unionText .cpp = .ok unionChain ∧ Reached unionChain ∧
      ∃ tag, unionChain.committed Collector.sink ⟨.cpp, false⟩ ⟨false, false⟩ .empty
          (.empty TagKind.all) = [tag] ∧
        tag.name = "f" ∧ tag.typeReference = some ⟨"union", "U"⟩ := by
  have reached : Reached unionChain := .tokenized tokenize_unionText .refl
  obtain ⟨characterized, _⟩ := scan_typeReference Collector.sink ⟨.cpp, false⟩ ⟨false, false⟩
    .empty (.empty TagKind.all) reached
  obtain ⟨tag, isOnly⟩ := List.length_eq_one_iff.1
    (show (unionChain.committed Collector.sink ⟨.cpp, false⟩ ⟨false, false⟩ .empty
      (.empty TagKind.all)).length = 1 by decide +kernel)
  have names : (unionChain.committed Collector.sink ⟨.cpp, false⟩ ⟨false, false⟩ .empty
      (.empty TagKind.all)).map Tag.name = ["f"] := by decide +kernel
  rw [isOnly] at names characterized
  refine ⟨tokenize_unionText, reached, tag, isOnly, by simpa using names, ?_⟩
  exact (characterized tag (by simp) _).2 ⟨_, _, refersToType_unionChain, rfl⟩

end Chain

end DeclScan
