import Mathlib
import DeclScan.Proofs.Cursor
import DeclScan.Proofs.Expansion
import DeclScan.Proofs.Offers

/-!
# Turns make progress

Each turn of a reading by places leaves all tokens before its place alone, and
the next one starts right behind a comma, with fewer tokens ahead.  So a reading
ends after at most one more turn than there are commas, and it never leaves the
live tokens: `Chain.scan_by_places`.
-/

set_option autoImplicit false

namespace DeclScan

def Chain.readByPlaces (file : SourceFile) (entry : ScopeKind) (chain : Chain) :
    Except Halt (List Variable × Chain) :=
  match chain.get? 0 with
  | none => .ok ([], chain)
  | some first =>
    if first.kind.isWord then Cursor.run file entry ⟨chain, 0, none⟩ else .ok ([], chain)

inductive Cursor.Reached (file : SourceFile) (entry : ScopeKind) (chain : Chain) :
    Cursor → Prop where
  | first {first : Token} : chain.get? 0 = some first → first.kind.isWord = true →
      Reached file entry chain ⟨chain, 0, none⟩
  | next {cursor : Cursor} {turn : Turn} {place : Nat} : Reached file entry chain cursor →
      cursor.turn file entry = .ok turn → turn.next = some place →
      Reached file entry chain ⟨turn.chain, place, some turn.typeEnd⟩

/-- The turn that follows starts right behind a comma.  The tokens ahead of it
are those that stood behind this comma before, and they are fewer than those
ahead of this turn. -/
structure Turn.GoesOnAt (turn : Turn) (cursor : Cursor) (place : Nat) : Prop where
  stops : ∃ comma nearer further, comma.kind = .punct .comma ∧
    place = nearer + 1 ∧ turn.chain.get? nearer = some comma ∧
    cursor.place ≤ further ∧ cursor.chain.get? further = some comma ∧
    turn.chain.live.drop place = cursor.chain.live.drop (further + 1)
  fewer : turn.chain.live.length - place < cursor.chain.live.length - cursor.place

namespace Cursor

variable {file : SourceFile} {entry : ScopeKind} {cursor : Cursor} {passed ahead : List Token}
  {chain : Chain}

theorem readByPlaces_eq (headed : ∀ token ∈ chain.live, token.IsHeaded) :
    chain.readByPlaces file entry =
      .ok ((Declaration.read file entry chain.live).declared,
        { chain with live := (Declaration.read file entry chain.live).live }) := by
  obtain ⟨stored, live⟩ := chain
  cases live with
  | nil => rfl
  | cons first rest =>
    have stands : Stands ⟨⟨stored, first :: rest⟩, 0, none⟩ [] (first :: rest) := ⟨rfl, rfl⟩
    have atFirst : Chain.get? ⟨stored, first :: rest⟩ 0 = some first := rfl
    simp only [Chain.readByPlaces, atFirst, Declaration.read]
    split
    · exact run_of_stands rfl stands headed
    · rfl

/-- No token that was passed before a declarator is taken out. -/
theorem live_of_find? {declarator : Declarator} (start : StartsDeclarator passed)
    (found : Declarator.find? file entry passed ahead = some declarator) :
    ∃ kept, declarator.live = passed.reverse ++ kept := by
  obtain ⟨lead, _, isLead⟩ := Declarator.exists_lead_of_find? start found
  refine ⟨lead ++ ((declarator.qualification.qualifiers.map Qualifier.colons).reverse ++
    declarator.site.holder :: declarator.ahead), ?_⟩
  simp [Declarator.live, Declarator.settled, Qualification.settled, isLead]

/-- A turn leaves the tokens before its place alone. -/
theorem take_of_turn {turn : Turn} (stands : cursor.Stands passed ahead)
    (start : StartsDeclarator passed) (turned : cursor.turn file entry = .ok turn) :
    turn.chain.live.take cursor.place = cursor.chain.live.take cursor.place := by
  obtain ⟨declarator, typeEnd, found, _, rfl⟩ := turn_ok stands turned
  obtain ⟨kept, isLive⟩ := live_of_find? start found
  rw [stands.place, stands.live, ← List.length_reverse, List.take_left, Turn.ofDeclarator, isLive,
    List.take_left]

theorem goesOnAt_of_turn {turn : Turn} {place : Nat} (stands : cursor.Stands passed ahead)
    (turned : cursor.turn file entry = .ok turn) (next : turn.next = some place) :
    turn.GoesOnAt cursor place := by
  refine ⟨?_, remaining_lt stands turned next⟩
  obtain ⟨declarator, typeEnd, found, _, rfl⟩ := turn_ok stands turned
  obtain ⟨⟨nearer, others⟩, following, rfl⟩ := Option.map_eq_some_iff.1 next
  obtain ⟨between, comma, isComma, isAhead, isNearer⟩ := nextDeclarator?_split following
  obtain ⟨front, whole⟩ := Declarator.suffix_of_find? found
  have nextStands := stands_next following cursor.chain (some typeEnd)
  -- all that stands before the comma now, and all that stood before it
  have now : (Turn.ofDeclarator cursor.chain declarator typeEnd).chain.live =
      (between.reverse ++ declarator.settled).reverse ++ comma :: others :=
    Chain.live_of_cons (isNearer ▸ nextStands.live)
  have earlier : cursor.chain.live = (between.reverse ++ front.reverse ++ passed).reverse ++
      comma :: others := by
    rw [stands.live, ← whole, isAhead]
    simp
  refine ⟨comma, (between.reverse ++ declarator.settled).length,
    (between.reverse ++ front.reverse ++ passed).length, isComma, ?_, Chain.get?_of_live now, ?_,
    Chain.get?_of_live earlier, ?_⟩
  · simp [isNearer]
  · rw [stands.place, List.length_append]
    exact Nat.le_add_left _ _
  · have behind : cursor.chain.live =
        (comma :: (between.reverse ++ front.reverse ++ passed)).reverse ++ others := by
      simpa using earlier
    exact (Chain.drop_of_live nextStands.live).trans (Chain.drop_of_live behind).symm

theorem Reached.stands (reached : Reached file entry chain cursor) :
    ∃ passed ahead,
      cursor.Stands passed ahead ∧ StartsDeclarator passed ∧ ahead <:+ chain.live := by
  induction reached with
  | first => exact ⟨[], chain.live, ⟨rfl, rfl⟩, startsDeclarator_nil, List.suffix_refl _⟩
  | next _ turned next ih =>
    obtain ⟨passed, ahead, stands, start, suffix⟩ := ih
    obtain ⟨declarator, typeEnd, found, _, rfl⟩ := turn_ok stands turned
    obtain ⟨⟨nearer, others⟩, following, rfl⟩ := Option.map_eq_some_iff.1 next
    exact ⟨nearer, others, stands_next following _ _, startsDeclarator_next following,
      (suffix_of_next found following).trans suffix⟩

end Cursor

/-- Each variable but the first one stands behind a comma of its own. -/
theorem Declaration.length_declared_le (file : SourceFile) (entry : ScopeKind)
    (known : Option Token) (passed ahead : List Token) :
    (readFrom file entry known passed ahead).declared.length ≤
      1 + ahead.countP fun token => token.kind = .punct .comma := by
  fun_induction readFrom file entry known passed ahead with
  | case1 => exact Nat.zero_le _
  | case2 => exact Nat.zero_le _
  | case3 => exact Nat.le_add_right 1 _
  | case4 known passed ahead declarator found typeEnd ended first nearer others next =>
    rename_i ih
    obtain ⟨between, comma, isComma, isAhead, _⟩ := nextDeclarator?_split next
    obtain ⟨front, whole⟩ := Declarator.suffix_of_find? found
    have commas : (others.countP fun token => token.kind = .punct .comma) + 1 ≤
        ahead.countP fun token => token.kind = .punct .comma := by
      rw [← whole, isAhead, List.countP_append, List.countP_append, List.countP_cons]
      simp only [isComma, decide_true, if_true]
      omega
    rw [List.length_cons]
    exact (Nat.succ_le_succ ih).trans (Nat.add_le_add_left commas 1)

theorem Declaration.length_read_le (file : SourceFile) (entry : ScopeKind) (live : List Token) :
    (read file entry live).declared.length ≤
      1 + live.countP fun token => token.kind = .punct .comma := by
  cases live with
  | nil => exact Nat.zero_le _
  | cons first rest =>
    rw [read]
    split
    · exact length_declared_le file entry none [] (first :: rest)
    · exact Nat.zero_le _

/-! ## Groups of texts -/

namespace Folding

structure Headed (folding : Folding) : Prop where
  openers : ∀ region ∈ folding.regions, region.opener.kind = .opening region.bracket
  groups : ∀ token ∈ folding.flatten, token.IsHeaded

variable {folding : Folding} {token : Token}

theorem headed_start : start.Headed where
  openers := by simp [start]
  groups := by simp [start, flatten, flattenRegions]

theorem Headed.add (headed : folding.Headed) (isHeaded : token.IsHeaded) :
    (folding.add token).Headed := by
  obtain ⟨openers, groups⟩ := headed
  constructor
  · unfold Folding.add
    split
    · exact openers
    · rename_i region regions isOpen
      rw [isOpen, List.forall_mem_cons] at openers
      exact List.forall_mem_cons.2 openers
  · rw [flatten_add, List.forall_mem_append, List.forall_mem_singleton]
    exact ⟨groups, isHeaded⟩

theorem Headed.read (headed : folding.Headed) (isHeaded : token.IsHeaded) :
    (folding.read token).Headed := by
  unfold Folding.read
  split
  · rename_i bracket isOpening
    split
    · obtain ⟨openers, groups⟩ := headed
      refine ⟨List.forall_mem_cons.2 ⟨isOpening, openers⟩, ?_⟩
      rw [flatten_open, List.forall_mem_append, List.forall_mem_singleton]
      exact ⟨groups, isHeaded⟩
    · exact headed.add isHeaded
  · rename_i bracket _
    split
    · rename_i region regions isOpen
      split
      · rename_i isBracket
        obtain ⟨openers, groups⟩ := headed
        rw [isOpen, List.forall_mem_cons] at openers
        rw [flatten_innermost isOpen, List.forall_mem_append] at groups
        refine Headed.add ⟨openers.2, groups.1⟩ ?_
        intro isGroup _
        obtain rfl : bracket = .round := by simpa [Chain.storeGroup, Chain.store] using isGroup
        exact ⟨region.opener, rfl, by rw [openers.1, isBracket]⟩
      · exact headed.add isHeaded
    · exact headed.add isHeaded
  · exact headed.add isHeaded

theorem Headed.foldl (headed : folding.Headed) (language : Language) (lines : LineIndex)
    (lexemes : List Lexeme) :
    (lexemes.foldl (readLexeme language lines) folding).Headed := by
  induction lexemes generalizing folding with
  | nil => exact headed
  | cons lexeme lexemes ih =>
    refine ih (Headed.read ⟨headed.openers, headed.groups⟩ fun isGroup => ?_)
    exact absurd isGroup (TokenKind.ofLexeme_ne_group language lexeme .round)

end Folding

/-- In the chain of a text, parenthesis groups start with their brackets. -/
theorem Chain.headed_of_tokenize {source : String} {language : Language} {chain : Chain}
    (tokenized : tokenize source language = .ok chain) : ∀ token ∈ chain.live, token.IsHeaded := by
  unfold tokenize at tokenized
  split at tokenized
  · obtain rfl := Except.ok.inj tokenized
    exact (Folding.headed_start.foldl ..).groups
  · cases tokenized

/-! ## Whole scans -/

/-- A statement can be read with nothing but a place in its live tokens, and the
reading ends without leaving them: no step goes back beyond the front, and no
token is taken out where there is none.  No turn takes out a token before its
place, and the next turn, if there is one, goes on behind a comma with fewer
tokens ahead.  So at most one variable more than there are commas is offered. -/
theorem Chain.scan_by_places {σ : Type} (sink : Sink σ) (file : SourceFile) (storage : Storage)
    {chain : Chain} (scopes : ScopeStack) (state : σ)
    (headed : ∀ token ∈ chain.live, token.IsHeaded) :
    chain.readByPlaces file scopes.currentKind =
        .ok ((Declaration.read file scopes.currentKind chain.live).declared,
          (chain.scan sink file storage scopes state).chain) ∧
      (∀ cursor, Cursor.Reached file scopes.currentKind chain cursor →
        cursor.turn file scopes.currentKind ≠ .error .outside ∧
          cursor.turn file scopes.currentKind ≠ .error .malformed ∧
          ∀ turn, cursor.turn file scopes.currentKind = .ok turn →
            turn.chain.live.take cursor.place = cursor.chain.live.take cursor.place ∧
              ∀ place, turn.next = some place →
                turn.GoesOnAt cursor place ∧ turn.chain.live.drop place <:+ chain.live) ∧
      (chain.offers sink file storage scopes state).length ≤
        1 + chain.live.countP fun token => token.kind = .punct .comma := by
  refine ⟨Cursor.readByPlaces_eq headed, ?_, ?_⟩
  · intro cursor reached
    obtain ⟨passed, ahead, stands, start, suffix⟩ := reached.stands
    have headedAhead : ∀ token ∈ ahead, token.IsHeaded := fun token member =>
      headed token (suffix.mem member)
    refine ⟨?_, ?_, ?_⟩
    · intro outside
      cases Cursor.turn_error stands headedAhead outside
    · intro malformed
      cases Cursor.turn_error stands headedAhead malformed
    · intro turn turned
      refine ⟨Cursor.take_of_turn stands start turned, fun place next => ?_⟩
      obtain ⟨_, _, nextStands, _, nextSuffix⟩ := (reached.next turned next).stands
      rw [← Chain.drop_of_live nextStands.live, ← nextStands.place] at nextSuffix
      exact ⟨Cursor.goesOnAt_of_turn stands turned next, nextSuffix⟩
  · rw [offers_eq, List.length_map]
    exact Declaration.length_read_le file scopes.currentKind chain.live

def threeText : String := "int N::a(1), (*f)(int), M::b;"

def threeLexemes : List Lexeme :=
  [⟨.word, "int", .ofLength 0 3⟩, ⟨.word, "N", .ofLength 4 1⟩,
    ⟨.punct .doubleColon, "::", .ofLength 5 2⟩, ⟨.word, "a", .ofLength 7 1⟩,
    ⟨.opening .round, "(", .ofLength 8 1⟩, ⟨.number, "1", .ofLength 9 1⟩,
    ⟨.closing .round, ")", .ofLength 10 1⟩, ⟨.punct .comma, ",", .ofLength 11 1⟩,
    ⟨.opening .round, "(", .ofLength 13 1⟩, ⟨.punct .star, "*", .ofLength 14 1⟩,
    ⟨.word, "f", .ofLength 15 1⟩, ⟨.closing .round, ")", .ofLength 16 1⟩,
    ⟨.opening .round, "(", .ofLength 17 1⟩, ⟨.word, "int", .ofLength 18 3⟩,
    ⟨.closing .round, ")", .ofLength 21 1⟩, ⟨.punct .comma, ",", .ofLength 22 1⟩,
    ⟨.word, "M", .ofLength 24 1⟩, ⟨.punct .doubleColon, "::", .ofLength 25 2⟩,
    ⟨.word, "b", .ofLength 27 1⟩, ⟨.punct .semicolon, ";", .ofLength 28 1⟩]

def threeChain : Chain := .ofLexemes .cpp ⟨[]⟩ threeLexemes

theorem tokenize_threeText : tokenize threeText .cpp = .ok threeChain := by
  have read : lex threeText = .ok threeLexemes := by cbv
  simp only [tokenize, read]
  rfl

theorem Chain.scan_by_places_threeText :
    tokenize threeText .cpp = .ok threeChain ∧
      (∀ token ∈ threeChain.live, token.IsHeaded) ∧
      (∃ declared, threeChain.readByPlaces ⟨.cpp, false⟩ .inNamespace =
          .ok (declared, (threeChain.scan Collector.sink ⟨.cpp, false⟩ ⟨false, false⟩ .empty
            (.empty TagKind.all)).chain) ∧
        (declared.map fun found => (found.name.text, found.qualifiers.map Token.text)) =
          [("a", ["N"]), ("f", []), ("b", ["M"])]) ∧
      (threeChain.offers Collector.sink ⟨.cpp, false⟩ ⟨false, false⟩ .empty
          (.empty TagKind.all)).length ≤ 1 + 2 := by
  have headed := Chain.headed_of_tokenize tokenize_threeText
  obtain ⟨read, _, few⟩ := scan_by_places Collector.sink ⟨.cpp, false⟩ ⟨false, false⟩ .empty
    (.empty TagKind.all) headed
  refine ⟨tokenize_threeText, headed, ⟨_, read, ?_⟩, few.trans ?_⟩
  · decide +kernel
  · decide +kernel

end DeclScan
