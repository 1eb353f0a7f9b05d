import Mathlib
import DeclScan.Chain
import DeclScan.Proofs.DeclaratorList

/-!
# Steps by places

A declarator can be found with nothing but places in the live tokens.  Then a
step back may leave the front, a token may be taken out where there is none, and
taking a token out moves those behind it.  Here every such step is checked, and
said to find what the library finds between the tokens passed and those ahead.
-/

set_option autoImplicit false

namespace DeclScan

inductive Halt where
  /-- A place before the first live token or behind the last one. -/
  | outside
  /-- A parenthesis group that does not start with its bracket. -/
  | malformed
  /-- A shape that is not recognized. -/
  | unrecognized
deriving DecidableEq, Repr

def back (place count : Nat) : Except Halt Nat :=
  if count ≤ place then .ok (place - count) else .error .outside

theorem back_of_le {place count : Nat} (inside : count ≤ place) :
    back place count = .ok (place - count) := if_pos inside

def before (place : Nat) : Except Halt Nat :=
  if place = 0 then .error .unrecognized else back place 1

theorem before_succ (place : Nat) : before (place + 1) = .ok place := rfl

theorem lt_of_before {place nearer : Nat} (isBefore : before place = .ok nearer) :
    nearer < place := by
  cases place with
  | zero => cases isBefore
  | succ place =>
    obtain rfl := Except.ok.inj isBefore
    exact Nat.lt_succ_self place

namespace Chain

variable {chain : Chain} {passed ahead : List Token}

theorem get?_of_live (live : chain.live = passed.reverse ++ ahead) :
    chain.get? passed.length = ahead.head? := by
  rw [get?, live, ← List.length_reverse, List.getElem?_append_right (Nat.le_refl _), Nat.sub_self,
    List.head?_eq_getElem?]

theorem kindAt?_of_live (live : chain.live = passed.reverse ++ ahead) :
    chain.kindAt? passed.length = ahead.head?.map Token.kind := by
  rw [kindAt?, get?_of_live live]

theorem drop_of_live (live : chain.live = passed.reverse ++ ahead) :
    chain.live.drop passed.length = ahead := by
  rw [live, ← List.length_reverse, List.drop_left]

theorem live_of_cons {token : Token} (live : chain.live = (token :: passed).reverse ++ ahead) :
    chain.live = passed.reverse ++ token :: ahead := by
  rw [live, List.reverse_cons, List.append_assoc]
  rfl

theorem kindAt?_of_cons {token : Token} (live : chain.live = (token :: passed).reverse ++ ahead) :
    chain.kindAt? passed.length = some token.kind := kindAt?_of_live (live_of_cons live)

theorem lt_of_kindAt? {chain : Chain} {place : Nat} {kind : TokenKind}
    (isKind : chain.kindAt? place = some kind) : place < chain.live.length := by
  obtain ⟨token, isToken, _⟩ := Option.map_eq_some_iff.1 isKind
  exact (List.getElem?_eq_some_iff.1 isToken).1

theorem le_of_angleRunEnd? {chain : Chain} {place last : Nat}
    (isEnd : chain.angleRunEnd? place = some last) : place ≤ last := by
  unfold angleRunEnd? at isEnd
  split at isEnd
  · cases isEnd
  · split at isEnd
    · obtain ⟨length, _, rfl⟩ := Option.map_eq_some_iff.1 isEnd
      exact Nat.le_add_right place length
    · cases isEnd

def notablePlace? (chain : Chain) (place : Nat) : Option Nat :=
  match _token : chain.kindAt? place with
  | none => none
  | some kind =>
    if kind.isNotable then some place
    else if kind = .opening .angle then
      match _run : chain.angleRunEnd? place with
      | some last => chain.notablePlace? (last + 1)
      | none => none
    else if kind.isDisqualifying then none
    else chain.notablePlace? (place + 1)
termination_by chain.live.length - place
decreasing_by
  all_goals have := lt_of_kindAt? _token
  · have := le_of_angleRunEnd? _run
    omega
  · omega

theorem notablePlace?_eq (chain : Chain) (place : Nat) :
    chain.notablePlace? place =
      match chain.kindAt? place with
      | none => none
      | some kind =>
        if kind.isNotable then some place
        else if kind = .opening .angle then
          match chain.angleRunEnd? place with
          | some last => chain.notablePlace? (last + 1)
          | none => none
        else if kind.isDisqualifying then none
        else chain.notablePlace? (place + 1) := by
  rw [notablePlace?]
  split
  · rename_i none
    simp only [none]
  · rename_i kind isKind
    simp only [isKind]
    split
    · rfl
    · split
      · split
        · rename_i last isEnd
          simp only [isEnd]
        · rename_i unclosed
          simp only [unclosed]
      · rfl

theorem notablePlace?_of_live (live : chain.live = passed.reverse ++ ahead) :
    chain.notablePlace? passed.length =
      (leadIn? passed ahead).map fun lead => lead.passed.length := by
  fun_induction leadIn? passed ahead with
  | case1 passed =>
    rw [notablePlace?_eq, kindAt?_of_live live]
    rfl
  | case2 passed token rest isNotable =>
    rw [notablePlace?_eq, kindAt?_of_live live]
    exact if_pos isNotable
  | case3 passed token rest _ isAngle length closed ih =>
    have isEnd : chain.angleRunEnd? passed.length = some (passed.length + length) := by
      simp [angleRunEnd?, drop_of_live live, isAngle, closed]
    have next : ((rest.take length).reverse ++ token :: passed).length =
        passed.length + length + 1 := by
      have := AngleRun.le_of_length? closed
      simp only [List.length_append, List.length_reverse, List.length_take, List.length_cons]
      omega
    have later := ih (by simp [live])
    rw [next] at later
    rw [notablePlace?_eq, kindAt?_of_live live]
    simpa [isAngle, isEnd, TokenKind.isNotable] using later
  | case4 passed token rest _ isAngle unclosed =>
    have noEnd : chain.angleRunEnd? passed.length = none := by
      simp [angleRunEnd?, drop_of_live live, isAngle, unclosed]
    rw [notablePlace?_eq, kindAt?_of_live live]
    simp [isAngle, noEnd, TokenKind.isNotable]
  | case5 passed token rest noNotable noAngle disqualifying =>
    rw [notablePlace?_eq, kindAt?_of_live live]
    simp [noNotable, noAngle, disqualifying]
  | case6 passed token rest noNotable noAngle passable ih =>
    have later := ih (by simp [live])
    rw [notablePlace?_eq, kindAt?_of_live live]
    simpa [noNotable, noAngle, passable] using later

end Chain

/-! ## Names -/

def Token.IsHeaded (token : Token) : Prop :=
  token.kind = .group .round → 3 ≤ token.nested.length →
    ∃ first ∈ token.nested.head?, first.kind = .opening .round

/-- Whether a group holds constructor arguments.  It is only looked into when
it starts with its bracket. -/
def Signature.arguments (group : Token) : Except Halt Bool :=
  match group.nested with
  | first :: _ :: _ :: _ =>
    if first.kind = .opening .round then .ok (looksLikeArguments group) else .error .malformed
  | _ => .ok false

theorem Signature.arguments_cases {group : Token} (isGroup : group.kind = .group .round) :
    arguments group = .error .malformed ∧ ¬ group.IsHeaded ∨
      arguments group = .ok (looksLikeArguments group) := by
  unfold arguments looksLikeArguments
  cases nested : group.nested with
  | nil => exact .inr rfl
  | cons first rest =>
    match rest, nested with
    | [], _ => exact .inr rfl
    | [_], _ => exact .inr rfl
    | second :: third :: others, nested =>
      by_cases isOpening : first.kind = .opening .round
      · exact .inr (if_pos isOpening)
      · refine .inl ⟨if_neg isOpening, fun headed => ?_⟩
        obtain ⟨head, isHead, opens⟩ := headed isGroup (by simp [nested])
        obtain rfl : first = head := by simpa [nested] using isHead
        exact isOpening opens

structure PlacedName where
  name : Token
  before : Nat
  resume : Nat

def NameSite.placed (site : NameSite) : Except Halt PlacedName :=
  match site.before with
  | [] => .error .unrecognized
  | _ :: outer => .ok ⟨site.name, outer.length, site.before.length + 1⟩

namespace Chain

variable {chain : Chain} {passed ahead : List Token}

def pointerNameAt? (chain : Chain) (notable : Nat) (group : Token) : Option Token :=
  match chain.get? (notable + 1) with
  | none => none
  | some next =>
    if next.kind = .group .round ∧ Signature.looksLikeParameters next then
      Token.lastNested? TokenKind.isIdentifier group.nested
    else none

def plainName (name : Token) (place resume : Nat) : Except Halt PlacedName := do
  let nearer ← before place
  .ok ⟨name, nearer, resume⟩

def nameAt (file : SourceFile) (entry : ScopeKind) (chain : Chain) (notable : Nat) :
    Except Halt PlacedName := do
  let last ← before notable
  match chain.get? last, chain.get? notable with
  | some previous, some token =>
    if token.kind = .group .round then
      match chain.pointerNameAt? notable token with
      | some name => do
        let nearer ← back notable 1
        .ok ⟨name, nearer, notable + 1⟩
      | none =>
        if previous.kind = .identifier ∧ allowsArguments file entry then do
          if ← Signature.arguments token then plainName previous last notable
          else .error .unrecognized
        else .error .unrecognized
    else if previous.kind = .identifier then plainName previous last notable
    else .error .unrecognized
  | _, _ => .error .unrecognized

theorem pointerNameAt?_of_live {group : Token}
    (live : chain.live = passed.reverse ++ group :: ahead) :
    chain.pointerNameAt? passed.length group = pointerName? group ahead := by
  have behind : chain.live = (group :: passed).reverse ++ ahead := by simp [live]
  have next := get?_of_live behind
  rw [List.length_cons] at next
  rw [pointerNameAt?, next]
  cases ahead <;> rfl

theorem plainName_eq (name holder : Token) (outer ahead : List Token) :
    plainName name outer.length (outer.length + 1) =
      NameSite.placed ⟨name, holder, outer, ahead⟩ := by
  cases outer <;> rfl

theorem nameAt_cases (file : SourceFile) (entry : ScopeKind) {lead : LeadIn}
    (live : chain.live = lead.tokens) :
    chain.nameAt file entry lead.passed.length = .error .malformed ∧ ¬ lead.notable.IsHeaded ∨
      chain.nameAt file entry lead.passed.length =
        match lead.nameSite? file entry with
        | none => .error .unrecognized
        | some site => site.placed := by
  obtain ⟨passed, notable, after⟩ := lead
  cases passed with
  | nil => exact .inr rfl
  | cons previous outer =>
    have isLast : before (outer.length + 1) = .ok outer.length := rfl
    have atLast : chain.get? outer.length = some previous := get?_of_live (live_of_cons live)
    have atNotable : chain.get? (outer.length + 1) = some notable := get?_of_live live
    have pointer : chain.pointerNameAt? (outer.length + 1) notable = pointerName? notable after :=
      pointerNameAt?_of_live live
    have plain := plainName_eq previous previous outer (notable :: after)
    simp only [nameAt, LeadIn.nameSite?, List.length_cons, isLast, bind, Except.bind, atLast,
      atNotable, pointer, plain]
    by_cases isGroup : notable.kind = .group .round
    · simp only [if_pos isGroup]
      cases pointerName? notable after with
      | some name => exact .inr rfl
      | none =>
        by_cases allowed : previous.kind = .identifier ∧ allowsArguments file entry
        · obtain ⟨isName, inside⟩ := allowed
          simp only [isName, inside, true_and, and_self, if_true]
          rcases Signature.arguments_cases isGroup with ⟨malformed, notHeaded⟩ | read
          · exact .inl ⟨by rw [malformed], notHeaded⟩
          · rw [read]
            cases Signature.looksLikeArguments notable <;> exact .inr rfl
        · simp only [if_neg allowed]
          right
          rw [if_neg fun accepted => allowed ⟨accepted.1, accepted.2.1⟩]
    · right
      simp only [if_neg isGroup]
      by_cases isName : previous.kind = .identifier
      · simp only [if_pos isName]
      · simp only [if_neg isName]

/-! ## Qualifiers -/

/-- Walks back over qualifiers: the place of the token before them, and that of
the outermost of their names, if there is one. -/
def skipQualifiers (chain : Chain) (place : Nat) (outermost : Option Nat) :
    Except Halt (Nat × Option Nat) :=
  if chain.kindAt? place = some (.punct .doubleColon) then
    match _colons : before place with
    | .error halt => .error halt
    | .ok name =>
      if chain.kindAt? name = some .identifier then
        match _name : before name with
        | .error halt => .error halt
        | .ok outer => chain.skipQualifiers outer (some name)
      else .error .unrecognized
  else .ok (place, outermost)
termination_by place
decreasing_by
  have := lt_of_before _colons
  have := lt_of_before _name
  omega

theorem skipQualifiers_eq (chain : Chain) (place : Nat) (outermost : Option Nat) :
    chain.skipQualifiers place outermost =
      if chain.kindAt? place = some (.punct .doubleColon) then do
        let name ← before place
        if chain.kindAt? name = some .identifier then do
          let outer ← before name
          chain.skipQualifiers outer (some name)
        else .error .unrecognized
      else .ok (place, outermost) := by
  rw [skipQualifiers]
  split
  · cases place with
    | zero => rfl
    | succ name =>
      simp only [before_succ, bind, Except.bind]
      split
      · cases name <;> rfl
      · rfl
  · rfl

theorem skipQualifiers_of_live {nearer rest : List Token} (outermost : Option Nat)
    (live : chain.live = nearer.reverse ++ rest) (preceded : nearer ≠ []) :
    chain.skipQualifiers (nearer.length - 1) outermost =
      match qualification? nearer with
      | none => .error .unrecognized
      | some found =>
        .ok (found.before.length,
          if found.qualifiers = [] then outermost else some (found.before.length + 1)) := by
  fun_induction qualification? nearer generalizing rest outermost with
  | case1 => exact absurd rfl preceded
  | case2 token isColons =>
    have atToken : chain.kindAt? 0 = some (.punct .doubleColon) := by
      rw [← isColons]
      exact kindAt?_of_cons live
    rw [skipQualifiers_eq]
    exact if_pos atToken
  | case3 token noColons =>
    have atToken : chain.kindAt? 0 = some token.kind := kindAt?_of_cons live
    rw [skipQualifiers_eq]
    exact if_neg (by simpa [atToken] using noColons)
  | case4 token name outer isColons isName ih =>
    have atToken : chain.kindAt? (outer.length + 1) = some token.kind := kindAt?_of_cons live
    have atName : chain.kindAt? outer.length = some name.kind := kindAt?_of_cons (live_of_cons live)
    rw [skipQualifiers_eq]
    simp only [List.length_cons, Nat.add_sub_cancel, atToken, isColons, if_true, before_succ,
      atName, isName, bind, Except.bind]
    cases outer with
    | nil => rfl
    | cons nearest others =>
      have further := ih (some (others.length + 1)) (live_of_cons (live_of_cons live)) (by simp)
      simp only [List.length_cons, Nat.add_sub_cancel, before_succ] at further ⊢
      rw [further]
      cases qualified : qualification? (nearest :: others) with
      | none => rfl
      | some found =>
        -- this name is the outermost one if no qualifier precedes it
        have outermost : found.qualifiers = [] → found.before.length = others.length := by
          intro unqualified
          have tokens := tokens_of_qualification? qualified
          simp only [Qualification.tokens, unqualified, List.flatMap_nil, List.nil_append,
            List.cons.injEq] at tokens
          rw [tokens.2]
        by_cases unqualified : found.qualifiers = []
        · simp [unqualified, outermost unqualified]
        · simp [unqualified]
  | case5 token name outer isColons noName =>
    have atToken : chain.kindAt? (outer.length + 1) = some token.kind := kindAt?_of_cons live
    have atName : chain.kindAt? outer.length = some name.kind := kindAt?_of_cons (live_of_cons live)
    rw [skipQualifiers_eq]
    simp only [List.length_cons, Nat.add_sub_cancel, atToken, isColons, if_true, before_succ,
      atName, Option.some.injEq, noName, if_false, bind, Except.bind]
  | case6 token name outer noColons =>
    have atToken : chain.kindAt? (outer.length + 1) = some token.kind := kindAt?_of_cons live
    rw [skipQualifiers_eq]
    exact if_neg (by simpa [atToken] using noColons)

/-- Takes so many tokens out.  What is behind a token that was taken moves up,
so that the next one is taken one place further on: the second but one behind
it. -/
def takeEveryOther (chain : Chain) (place : Nat) : Nat → Except Halt (List Token × Chain)
  | 0 => .ok ([], chain)
  | count + 1 =>
    match chain.take? place with
    | none => .error .outside
    | some (token, chain) => do
      let (tokens, chain) ← chain.takeEveryOther (place + 1) count
      .ok (token :: tokens, chain)

def takeQualifiers (chain : Chain) (outermost : Option Nat) (behind : Nat) :
    Except Halt (List Token × Chain) :=
  match outermost with
  | none => .ok ([], chain)
  | some first => do
    let length ← back behind first
    chain.takeEveryOther first (length / 2)

theorem takeEveryOther_of_live {front rest : List Token} (qualifiers : List Qualifier)
    (live : chain.live = front ++ (qualifiers.flatMap Qualifier.tokens ++ rest)) :
    chain.takeEveryOther front.length qualifiers.length =
      .ok (qualifiers.map Qualifier.name,
        { chain with live := front ++ (qualifiers.map Qualifier.colons ++ rest) }) := by
  induction qualifiers generalizing chain front with
  | nil =>
    obtain ⟨stored, current⟩ := chain
    obtain rfl : current = front ++ rest := live
    rfl
  | cons outermost inner ih =>
    have split : chain.live = front ++
        outermost.name :: outermost.colons :: (inner.flatMap Qualifier.tokens ++ rest) := live
    have taken : chain.take? front.length = some (outermost.name,
        { chain with live :=
          (front ++ [outermost.colons]) ++ (inner.flatMap Qualifier.tokens ++ rest) }) := by
      simp [take?, get?, split, List.eraseIdx_append_of_length_le]
    have further := @ih
      { chain with live :=
        (front ++ [outermost.colons]) ++ (inner.flatMap Qualifier.tokens ++ rest) }
      (front ++ [outermost.colons]) rfl
    rw [List.length_append, List.length_singleton] at further
    rw [List.length_cons, takeEveryOther, taken]
    simp only [bind, Except.bind, further, List.map_cons]
    simp

theorem takeQualifiers_of_live {site : NameSite} {qualification : Qualification}
    (qualified : qualification? site.before = some qualification)
    (live : chain.live = site.tokens) :
    chain.takeQualifiers
        (if qualification.qualifiers = [] then none else some (qualification.before.length + 1))
        site.before.length =
      .ok (qualification.qualifiers.reverse.map Qualifier.name,
        { chain with live := (Declarator.mk site qualification).live }) := by
  have isBefore := tokens_of_qualification? qualified
  by_cases unqualified : qualification.qualifiers = []
  · obtain ⟨stored, current⟩ := chain
    obtain rfl : current = site.tokens := live
    simp only [takeQualifiers, unqualified, if_true]
    simp [Declarator.live, Declarator.settled, Declarator.ahead, Qualification.settled, unqualified,
      NameSite.tokens, ← isBefore, Qualification.tokens]
  · have length : back site.before.length (qualification.before.length + 1) =
        .ok (2 * qualification.qualifiers.length) := by
      rw [← isBefore, Qualification.length_tokens, back_of_le (Nat.le_add_left _ _),
        Nat.add_sub_cancel]
    have split : chain.live = (qualification.typeEnd :: qualification.before).reverse ++
        (qualification.qualifiers.reverse.flatMap Qualifier.tokens ++
          site.holder :: site.ahead) := by
      rw [live, NameSite.tokens, ← isBefore, Qualification.tokens_eq]
      simp
    have taken := takeEveryOther_of_live qualification.qualifiers.reverse split
    rw [List.length_reverse, List.length_reverse, List.length_cons] at taken
    simp only [takeQualifiers, if_neg unqualified, length, bind, Except.bind,
      Nat.mul_div_cancel_left _ Nat.zero_lt_two, taken]
    simp [Declarator.live, Declarator.settled, Declarator.ahead, Qualification.settled]

/-! ## The next declarator -/

def behindComma? (chain : Chain) (place : Nat) : Option Nat :=
  if chain.kindAt? place = some (.punct .comma) then some (place + 1) else none

/-- What an initializer, a dimension or a width starts with. -/
def trails : TokenKind → Bool
  | .group .round | .group .square | .punct .colon | .punct .assign => true
  | _ => false

def endsDeclarator : TokenKind → Bool
  | .punct .comma | .punct .semicolon | .opening .curly => true
  | _ => false

theorem endsDeclarator_iff {kind : TokenKind} : endsDeclarator kind = true ↔ kind.IsStop := by
  cases kind with
  | opening bracket => cases bracket <;> simp [endsDeclarator, TokenKind.IsStop]
  | punct punctuator => cases punctuator <;> simp [endsDeclarator, TokenKind.IsStop]
  | _ => simp [endsDeclarator, TokenKind.IsStop]

def nextPlace? (chain : Chain) (place : Nat) : Option Nat :=
  match chain.kindAt? place with
  | none => none
  | some kind =>
    if trails kind then (chain.next? place endsDeclarator).bind chain.behindComma?
    else chain.behindComma? place

theorem behindComma?_of_live (live : chain.live = passed.reverse ++ ahead) :
    ((ahead.findIdx? fun token => endsDeclarator token.kind).map (· + passed.length)).bind
        chain.behindComma? =
      (nextDeclarator? passed ahead).map fun following => following.1.length := by
  -- either the first token decides, or the place of the decision moves on with it
  induction ahead generalizing passed with
  | nil => rfl
  | cons token tail ih =>
    have atToken : chain.kindAt? passed.length = some token.kind := kindAt?_of_live live
    by_cases isStop : token.kind.IsStop
    · have isEnd : endsDeclarator token.kind = true := endsDeclarator_iff.2 isStop
      have first : ((token :: tail).findIdx? fun token => endsDeclarator token.kind) = some 0 := by
        rw [List.findIdx?_cons, if_pos isEnd]
      rw [first]
      rcases isStop with isComma | isEnd
      · simp [nextDeclarator?, behindComma?, atToken, isComma]
      · rw [nextDeclarator?_of_end isEnd]
        rcases isEnd with is | is <;> simp [behindComma?, atToken, is]
    · have goesOn : ¬ endsDeclarator token.kind = true := fun isEnd =>
        isStop (endsDeclarator_iff.1 isEnd)
      have further := @ih (token :: passed) (by simp [live])
      rw [nextDeclarator?_cons isStop, ← further, List.findIdx?_cons, if_neg goesOn, Option.map_map]
      congr 2
      funext length
      simp only [Function.comp_apply, List.length_cons]
      omega

theorem nextPlace?_of_live {token : Token} (live : chain.live = passed.reverse ++ token :: ahead)
    (follows : trails token.kind = true ∨ endsDeclarator token.kind = true) :
    chain.nextPlace? passed.length =
      (nextDeclarator? passed (token :: ahead)).map fun following => following.1.length := by
  have atToken : chain.kindAt? passed.length = some token.kind := kindAt?_of_live live
  have behind : chain.live = (token :: passed).reverse ++ ahead := by simpa using live
  have dropped : chain.live.drop (passed.length + 1) = ahead := drop_of_live behind
  rw [nextPlace?, atToken]
  by_cases isTrail : trails token.kind = true
  · have noStop : ¬ token.kind.IsStop := by
      rintro (is | is | is) <;> simp [is, trails] at isTrail
    simp only [isTrail, if_true, nextDeclarator?_cons noStop, ← behindComma?_of_live behind, next?,
      dropped, List.length_cons]
  · have isEnd := follows.resolve_left isTrail
    simp [isTrail, ← behindComma?_of_live live, List.findIdx?_cons, isEnd]

/-- Behind the holder of a name stands what the declarator goes on with or ends
with. -/
theorem follows_of_ending {file : SourceFile} {entry : ScopeKind} {held after others : List Token}
    {notable name holder : Token} (ending : Ending file entry held notable after name)
    (isHolder : holder :: others = held ++ notable :: after) :
    ∃ token rest, others = token :: rest ∧
      (trails token.kind = true ∨ endsDeclarator token.kind = true) := by
  cases ending with
  | plain _ isEnd =>
    obtain ⟨_, rfl⟩ := List.cons.inj isHolder
    refine ⟨notable, after, rfl, ?_⟩
    simp only [plainEnds, List.mem_cons, List.not_mem_nil, or_false] at isEnd
    rcases isEnd with is | is | is | is | is | is <;> simp [is, trails, endsDeclarator]
  | arguments _ isGroup =>
    obtain ⟨_, rfl⟩ := List.cons.inj isHolder
    exact ⟨notable, after, rfl, .inl (by simp [isGroup, trails])⟩
  | pointer shape =>
    obtain ⟨_, rfl⟩ := List.cons.inj isHolder
    obtain ⟨next, isNext, isGroup, _⟩ := shape.parameters
    obtain ⟨rest, rfl⟩ := List.head?_eq_some_iff.1 isNext
    exact ⟨next, rest, rfl, .inl (by simp [isGroup, trails])⟩

end Chain

end DeclScan
