import Mathlib
import DeclScan.Proofs.Places

/-!
# Reading by places

A reading by places takes one turn for each declarator.  `Cursor.turn_cases` says
that a turn finds the same declarator as `Declarator.find?` and fails no check,
but for parenthesis groups that do not start with their bracket.  A run of turns
ends, as each turn leaves fewer tokens ahead of the next one, and
`Cursor.run_of_stands` says that it reads what the library reads.
-/

set_option autoImplicit false

namespace DeclScan

structure Cursor where
  chain : Chain
  place : Nat
  typeEnd : Option Token

/-- What a turn finds, the tokens that it leaves, the end of the type, and the
place of the next turn. -/
structure Turn where
  declared : Variable
  chain : Chain
  typeEnd : Token
  next : Option Nat

namespace Cursor

def typeEndAt (cursor : Cursor) (place : Nat) : Except Halt Token :=
  match cursor.typeEnd, cursor.chain.get? place with
  | some known, _ => .ok known
  | none, some token =>
    if Declaration.endsType token.kind then .ok token else .error .unrecognized
  | none, none => .error .unrecognized

def settle (cursor : Cursor) (name : PlacedName) : Except Halt Turn := do
  let (place, outermost) ← cursor.chain.skipQualifiers name.before none
  let typeEnd ← cursor.typeEndAt place
  let (qualifiers, chain) ← cursor.chain.takeQualifiers outermost (name.before + 1)
  let resume ← back name.resume qualifiers.length
  .ok ⟨⟨name.name, qualifiers.reverse, Declaration.typeReference? chain.live typeEnd⟩, chain,
    typeEnd, chain.nextPlace? resume⟩

def turn (file : SourceFile) (entry : ScopeKind) (cursor : Cursor) : Except Halt Turn :=
  match cursor.chain.notablePlace? cursor.place with
  | none => .error .unrecognized
  | some notable => do
    let name ← cursor.chain.nameAt file entry notable
    cursor.settle name

end Cursor

/-! ## What a turn finds -/

/-- The cursor stands between these tokens: those passed, the nearest one first,
and those ahead. -/
structure Cursor.Stands (cursor : Cursor) (passed ahead : List Token) : Prop where
  live : cursor.chain.live = passed.reverse ++ ahead
  place : cursor.place = passed.length

def Turn.ofDeclarator (chain : Chain) (declarator : Declarator) (typeEnd : Token) : Turn where
  declared :=
    ⟨declarator.name, declarator.qualifiers, Declaration.typeReference? declarator.live typeEnd⟩
  chain := { chain with live := declarator.live }
  typeEnd := typeEnd
  next := (nextDeclarator? declarator.settled declarator.ahead).map fun following =>
    following.1.length

namespace Cursor

variable {file : SourceFile} {entry : ScopeKind} {cursor : Cursor} {passed ahead : List Token}

theorem typeEndAt_eq {declarator : Declarator} {rest : List Token}
    (live : cursor.chain.live =
      (declarator.qualification.typeEnd :: declarator.qualification.before).reverse ++ rest) :
    cursor.typeEndAt declarator.qualification.before.length =
      match Declaration.typeEnd? cursor.typeEnd declarator with
      | none => .error .unrecognized
      | some typeEnd => .ok typeEnd := by
  have atEnd : cursor.chain.get? declarator.qualification.before.length =
      some declarator.qualification.typeEnd := Chain.get?_of_live (Chain.live_of_cons live)
  unfold typeEndAt Declaration.typeEnd?
  rw [atEnd]
  cases cursor.typeEnd with
  | some known => rfl
  | none =>
    dsimp only
    split <;> rfl

theorem length_settled {site : NameSite} {qualification : Qualification}
    (qualified : qualification? site.before = some qualification) :
    back (site.before.length + 1) qualification.qualifiers.length =
      .ok (Declarator.mk site qualification).settled.length := by
  have length := congrArg List.length (tokens_of_qualification? qualified)
  rw [Qualification.length_tokens] at length
  have settled : (Declarator.mk site qualification).settled.length =
      site.before.length + 1 - qualification.qualifiers.length := by
    simp only [Declarator.settled, Qualification.settled, List.length_cons, List.length_append,
      List.length_map]
    omega
  rw [back_of_le (by omega), settled]

theorem settle_eq {site : NameSite} {token : Token} {rest : List Token}
    (live : cursor.chain.live = site.tokens) (isAhead : site.ahead = token :: rest)
    (follows : Chain.trails token.kind = true ∨ Chain.endsDeclarator token.kind = true) :
    (do
      let name ← site.placed
      cursor.settle name) =
      match qualification? site.before with
      | none => .error .unrecognized
      | some qualification =>
        match Declaration.typeEnd? cursor.typeEnd ⟨site, qualification⟩ with
        | none => .error .unrecognized
        | some typeEnd => .ok (.ofDeclarator cursor.chain ⟨site, qualification⟩ typeEnd) := by
  cases preceding : site.before with
  | nil =>
    have unplaced : site.placed = .error .unrecognized := by rw [NameSite.placed, preceding]
    rw [unplaced]
    rfl
  | cons nearest outer =>
    have placed : site.placed = .ok ⟨site.name, outer.length, site.before.length + 1⟩ := by
      rw [NameSite.placed, preceding]
    have length : site.before.length = outer.length + 1 := by rw [preceding]; rfl
    have skipped := Chain.skipQualifiers_of_live none live (by simp [preceding])
    rw [length, Nat.add_sub_cancel] at skipped
    simp only [placed, settle, bind, Except.bind, skipped, ← preceding]
    cases qualified : qualification? site.before with
    | none => rfl
    | some qualification =>
      have split : cursor.chain.live = (qualification.typeEnd :: qualification.before).reverse ++
          (qualification.qualifiers.reverse.flatMap Qualifier.tokens ++
            site.holder :: site.ahead) := by
        rw [live, NameSite.tokens, ← tokens_of_qualification? qualified, Qualification.tokens_eq]
        simp
      have isEnd := @typeEndAt_eq cursor ⟨site, qualification⟩ _ split
      have taken := Chain.takeQualifiers_of_live qualified live
      have next := @Chain.nextPlace?_of_live
        { cursor.chain with live := (Declarator.mk site qualification).live }
        (Declarator.mk site qualification).settled rest token
        (congrArg (_ ++ ·) isAhead) follows
      dsimp only at isEnd
      simp only [isEnd, ← length, taken]
      cases Declaration.typeEnd? cursor.typeEnd ⟨site, qualification⟩ with
      | none => rfl
      | some typeEnd =>
        simp only [List.length_map, List.length_reverse, length_settled qualified, next, ← isAhead,
          ← List.map_reverse, List.reverse_reverse]
        rfl

def reading (file : SourceFile) (entry : ScopeKind) (cursor : Cursor) (passed ahead : List Token) :
    Except Halt Turn :=
  match Declarator.find? file entry passed ahead with
  | none => .error .unrecognized
  | some declarator =>
    match Declaration.typeEnd? cursor.typeEnd declarator with
    | none => .error .unrecognized
    | some typeEnd => .ok (.ofDeclarator cursor.chain declarator typeEnd)

/-- A turn finds the declarator ahead, unless a group ahead is malformed. -/
theorem turn_cases (stands : cursor.Stands passed ahead) :
    cursor.turn file entry = .error .malformed ∧ (∃ token ∈ ahead, ¬ token.IsHeaded) ∨
      cursor.turn file entry = cursor.reading file entry passed ahead := by
  rw [turn, stands.place, Chain.notablePlace?_of_live stands.live, reading, Declarator.find?]
  cases read : leadIn? passed ahead with
  | none => exact .inr rfl
  | some lead =>
    have live : cursor.chain.live = lead.tokens := stands.live.trans (tokens_of_leadIn? read).symm
    obtain ⟨front, _, isNotable, isAhead, _⟩ := leadIn?_eq_some_iff.1 read
    simp only [Option.map_some]
    rcases Chain.nameAt_cases file entry live with ⟨malformed, notHeaded⟩ | named
    · left
      refine ⟨?_, lead.notable, by simp [isAhead], notHeaded⟩
      rw [malformed]
      rfl
    · right
      rw [named]
      cases isSite : lead.nameSite? file entry with
      | none => rfl
      | some site =>
        obtain ⟨held, ending, _, isHolder⟩ := LeadIn.ending_of_nameSite? isNotable isSite
        obtain ⟨token, rest, isNext, follows⟩ := Chain.follows_of_ending ending isHolder
        have atSite : cursor.chain.live = site.tokens :=
          live.trans (LeadIn.tokens_of_nameSite? isSite).symm
        have settled := settle_eq atSite isNext follows
        dsimp only
        rw [settled]
        cases qualification? site.before <;> rfl

theorem turn_eq (stands : cursor.Stands passed ahead) (headed : ∀ token ∈ ahead, token.IsHeaded) :
    cursor.turn file entry = cursor.reading file entry passed ahead := by
  rcases turn_cases stands with ⟨_, token, member, notHeaded⟩ | found
  · exact absurd (headed token member) notHeaded
  · exact found

theorem reading_cases (file : SourceFile) (entry : ScopeKind) (cursor : Cursor)
    (passed ahead : List Token) :
    cursor.reading file entry passed ahead = .error .unrecognized ∨
      ∃ declarator typeEnd, Declarator.find? file entry passed ahead = some declarator ∧
        Declaration.typeEnd? cursor.typeEnd declarator = some typeEnd ∧
        cursor.reading file entry passed ahead =
          .ok (.ofDeclarator cursor.chain declarator typeEnd) := by
  unfold reading
  split
  · exact .inl rfl
  · rename_i declarator found
    split
    · exact .inl rfl
    · rename_i typeEnd ended
      exact .inr ⟨declarator, typeEnd, found, ended, rfl⟩

theorem turn_ok {turn : Turn} (stands : cursor.Stands passed ahead)
    (turned : cursor.turn file entry = .ok turn) :
    ∃ declarator typeEnd, Declarator.find? file entry passed ahead = some declarator ∧
      Declaration.typeEnd? cursor.typeEnd declarator = some typeEnd ∧
      turn = .ofDeclarator cursor.chain declarator typeEnd := by
  rcases turn_cases stands with ⟨malformed, _⟩ | found
  · rw [malformed] at turned
    cases turned
  · rw [found] at turned
    rcases reading_cases file entry cursor passed ahead with
      unrecognized | ⟨declarator, typeEnd, isFound, ended, read⟩
    · rw [unrecognized] at turned
      cases turned
    · rw [read] at turned
      exact ⟨declarator, typeEnd, isFound, ended, (Except.ok.inj turned).symm⟩

/-- The only failure is a shape that is not recognized. -/
theorem turn_error {halt : Halt} (stands : cursor.Stands passed ahead)
    (headed : ∀ token ∈ ahead, token.IsHeaded) (failed : cursor.turn file entry = .error halt) :
    halt = .unrecognized := by
  rw [turn_eq stands headed] at failed
  rcases reading_cases file entry cursor passed ahead with unrecognized | ⟨_, _, _, _, read⟩
  · rw [unrecognized] at failed
    exact (Except.error.inj failed).symm
  · rw [read] at failed
    cases failed

theorem stands_next {declarator : Declarator} {nearer others : List Token}
    (following : nextDeclarator? declarator.settled declarator.ahead = some (nearer, others))
    (chain : Chain) (typeEnd : Option Token) :
    Stands ⟨{ chain with live := declarator.live }, nearer.length, typeEnd⟩ nearer others := by
  obtain ⟨pending, _, rfl, isAhead⟩ := nextDeclarator?_pending following
  refine ⟨?_, rfl⟩
  simp [Declarator.live, isAhead]

theorem stands_of_le (inside : cursor.place ≤ cursor.chain.live.length) :
    cursor.Stands (cursor.chain.live.take cursor.place).reverse
      (cursor.chain.live.drop cursor.place) where
  live := by rw [List.reverse_reverse, List.take_append_drop]
  place := by rw [List.length_reverse, List.length_take_of_le inside]

theorem Stands.remaining (stands : cursor.Stands passed ahead) :
    cursor.chain.live.length - cursor.place = ahead.length := by
  rw [stands.live, stands.place, List.length_append, List.length_reverse, Nat.add_sub_cancel_left]

/-- Fewer tokens stand ahead of the next turn, though some of those passed may
have been taken out. -/
theorem remaining_lt {turn : Turn} {place : Nat} (stands : cursor.Stands passed ahead)
    (turned : cursor.turn file entry = .ok turn) (next : turn.next = some place) :
    turn.chain.live.length - place < cursor.chain.live.length - cursor.place := by
  obtain ⟨declarator, typeEnd, found, _, rfl⟩ := turn_ok stands turned
  obtain ⟨⟨nearer, others⟩, following, rfl⟩ := Option.map_eq_some_iff.1 next
  have nextStands := stands_next following cursor.chain none
  have fewer := length_of_nextDeclarator? following
  have atMost := Declarator.length_of_find? found
  rw [stands.remaining]
  exact nextStands.remaining ▸ fewer.trans_le atMost

def run (file : SourceFile) (entry : ScopeKind) (cursor : Cursor) :
    Except Halt (List Variable × Chain) :=
  if _inside : cursor.place < cursor.chain.live.length then
    match _turned : cursor.turn file entry with
    | .error .unrecognized => .ok ([], cursor.chain)
    | .error halt => .error halt
    | .ok turn =>
      match _next : turn.next with
      | none => .ok ([turn.declared], turn.chain)
      | some place =>
        (run file entry ⟨turn.chain, place, some turn.typeEnd⟩).map fun later =>
          (turn.declared :: later.1, later.2)
  else .ok ([], cursor.chain)
termination_by cursor.chain.live.length - cursor.place
decreasing_by exact remaining_lt (stands_of_le (Nat.le_of_lt _inside)) _turned _next

theorem run_eq (stands : cursor.Stands passed ahead) :
    cursor.run file entry =
      match cursor.turn file entry with
      | .error .unrecognized => .ok ([], cursor.chain)
      | .error halt => .error halt
      | .ok turn =>
        match turn.next with
        | none => .ok ([turn.declared], turn.chain)
        | some place =>
          (run file entry ⟨turn.chain, place, some turn.typeEnd⟩).map fun later =>
            (turn.declared :: later.1, later.2) := by
  rw [run]
  split
  · split
    · rename_i unrecognized
      simp only [unrecognized]
    · rename_i halt isHalt turned
      simp only [turned]
    · rename_i turn turned
      simp only [turned]
      split
      · rename_i last
        simp only [last]
      · rename_i place next
        simp only [next]
  · have nothing : ahead = [] := by
      rw [← List.length_eq_zero_iff, ← stands.remaining]
      omega
    subst nothing
    have unread : cursor.reading file entry passed [] = .error .unrecognized := by
      rw [reading, Declarator.find?, leadIn?]
    rw [turn_eq stands (by simp), unread]

/-- A run reads what the library reads, and fails no check. -/
theorem run_of_stands {known : Option Token} (isKnown : cursor.typeEnd = known)
    (stands : cursor.Stands passed ahead) (headed : ∀ token ∈ ahead, token.IsHeaded) :
    cursor.run file entry =
      .ok ((Declaration.readFrom file entry known passed ahead).declared,
        { cursor.chain with
          live := (Declaration.readFrom file entry known passed ahead).live }) := by
  have unchanged : { cursor.chain with live := passed.reverse ++ ahead } = cursor.chain := by
    rw [← stands.live]
  fun_induction Declaration.readFrom file entry known passed ahead generalizing cursor with
  | case1 known passed ahead unfound =>
    rw [run_eq stands, turn_eq stands headed, reading]
    simp only [unfound, unchanged]
  | case2 known passed ahead declarator found unended =>
    rw [run_eq stands, turn_eq stands headed, reading]
    simp only [found, isKnown, unended, unchanged]
  | case3 known passed ahead declarator found typeEnd ended first =>
    rename_i last
    rw [run_eq stands, turn_eq stands headed, reading]
    simp only [found, isKnown, ended, Turn.ofDeclarator, last, Option.map_none]
    rfl
  | case4 known passed ahead declarator found typeEnd ended first nearer others next =>
    rename_i ih
    have nextStands := stands_next next cursor.chain (some typeEnd)
    have nextHeaded : ∀ token ∈ others, token.IsHeaded := by
      intro token member
      exact headed token ((suffix_of_next found next).mem member)
    have later := ih rfl nextStands nextHeaded (by rw [← nextStands.live])
    rw [run_eq stands, turn_eq stands headed, reading]
    simp only [found, isKnown, ended, Turn.ofDeclarator, next, Option.map_some, later]
    rfl

end Cursor

end DeclScan
