import Mathlib
import DeclScan.Proofs.ClosedBrackets
import DeclScan.Proofs.TypeReference

/-!
# Stray closing angle brackets

Every `<` of a lead-in is closed within it, but a `>` may stand there that closes
nothing.  No step of a scan asks more of it than of a `*`: both can stand in a
lead-in and both can end a type, and no search for the end of a run comes past a
`>` that no run ends in.  So a scan reads such a token as a `*`:
`Chain.scan_strayCloser`.
-/

set_option autoImplicit false

namespace DeclScan

def Token.asStar (token : Token) : Token := { token with kind := .punct .star }

/-- The second token is the first one, or the star in place of a `>`. -/
inductive Token.ReadsAs : Token → Token → Prop where
  | same (token : Token) : ReadsAs token token
  | star {closer : Token} : closer.kind = .closing .angle → ReadsAs closer closer.asStar

namespace Token.ReadsAs

variable {token token' : Token}

theorem agree (wanted : TokenKind → Prop)
    (blind : wanted (.closing .angle) ↔ wanted (.punct .star)) (reads : token.ReadsAs token') :
    wanted token'.kind ↔ wanted token.kind := by
  cases reads with
  | same => rfl
  | star closes => rw [closes, blind, asStar]

theorem eq_of_ne (reads : token.ReadsAs token') (noCloser : token.kind ≠ .closing .angle) :
    token' = token := by
  cases reads with
  | same => rfl
  | star closes => exact absurd closes noCloser

theorem eq_of_wanted (wanted : TokenKind → Prop) (reads : token.ReadsAs token')
    (isWanted : wanted token.kind) (unwanted : ¬ wanted (.closing .angle)) : token' = token := by
  apply reads.eq_of_ne
  intro closes
  rw [closes] at isWanted
  exact unwanted isWanted

theorem id_eq (reads : token.ReadsAs token') : token'.id = token.id := by
  cases reads <;> rfl

theorem text_eq (reads : token.ReadsAs token') : token'.text = token.text := by
  cases reads <;> rfl

theorem forall₂_refl (tokens : List Token) : List.Forall₂ ReadsAs tokens tokens :=
  List.forall₂_same.2 fun token _ => .same token

end Token.ReadsAs

/-- Tokens ahead that are read alike, and in which every run ends at the same
place. -/
inductive AheadAlike : List Token → List Token → Prop where
  | nil : AheadAlike [] []
  | cons {token token' : Token} {rest rest' : List Token} (reads : token.ReadsAs token')
      (ended : token.kind = .opening .angle →
        AngleRun.length? 0 rest' = AngleRun.length? 0 rest)
      (following : AheadAlike rest rest') : AheadAlike (token :: rest) (token' :: rest')

namespace AheadAlike

variable {ahead ahead' : List Token}

theorem refl (tokens : List Token) : AheadAlike tokens tokens := by
  induction tokens with
  | nil => exact .nil
  | cons token rest ih => exact .cons (.same token) (fun _ => rfl) ih

theorem forall₂ (alike : AheadAlike ahead ahead') :
    List.Forall₂ Token.ReadsAs ahead ahead' := by
  induction alike with
  | nil => exact .nil
  | cons reads _ _ ih => exact .cons reads ih

theorem drop (alike : AheadAlike ahead ahead') (count : Nat) :
    AheadAlike (ahead.drop count) (ahead'.drop count) := by
  induction alike generalizing count with
  | nil => simpa using AheadAlike.nil
  | cons reads ended following ih =>
    cases count with
    | zero => exact .cons reads ended following
    | succ count => exact ih count

/-- Behind tokens that close their own brackets no search notices the change. -/
theorem of_allClosed {front : List Token} {closer : Token} (allClosed : AngleRun.AllClosed front)
    (closes : closer.kind = .closing .angle) (back : List Token) :
    AheadAlike (front ++ closer :: back) (front ++ closer.asStar :: back) := by
  induction front with
  | nil =>
    have noOpening : closer.kind ≠ .opening .angle := by simp [closes]
    exact .cons (.star closes) (fun opens => absurd opens noOpening) (refl back)
  | cons token rest ih =>
    refine .cons (.same token) ?_ (ih (allClosed.drop 1))
    intro opens
    obtain ⟨length, closed⟩ := allClosed [] token rest rfl opens
    have ends := AngleRun.length?_append_of_some closed
    exact (ends (closer.asStar :: back)).trans (ends (closer :: back)).symm

/-- A `>` in which no run ends can be a star. -/
theorem of_unmatched {front back : List Token} {closer : Token}
    (closes : closer.kind = .closing .angle)
    (unmatched : ∀ start, ¬ AngleRun.RunsTo (front ++ closer :: back) start front.length) :
    AheadAlike (front ++ closer :: back) (front ++ closer.asStar :: back) := by
  by_cases allClosed : AngleRun.AllClosed front
  · exact of_allClosed allClosed closes back
  · obtain ⟨start, runs⟩ := AngleRun.exists_runsTo_of_not_allClosed closes back allClosed
    exact absurd runs (unmatched start)

end AheadAlike

/-! ## Steps that read alike -/

section Steps

variable {file : SourceFile} {entry : ScopeKind} {passed passed' ahead ahead' : List Token}

structure LeadIn.Alike (lead lead' : LeadIn) : Prop where
  passed : List.Forall₂ Token.ReadsAs lead.passed lead'.passed
  notable : lead'.notable = lead.notable
  following : AheadAlike (lead.notable :: lead.after) (lead.notable :: lead'.after)

theorem leadIn?_alike (passedAlike : List.Forall₂ Token.ReadsAs passed passed')
    (aheadAlike : AheadAlike ahead ahead') :
    Option.Rel LeadIn.Alike (leadIn? passed ahead) (leadIn? passed' ahead') := by
  fun_induction leadIn? passed ahead generalizing passed' ahead' with
  | case1 =>
    cases aheadAlike
    rw [leadIn?]
    exact .none
  | case2 passed token rest notable =>
    obtain - | @⟨_, token', _, rest', reads, ended, following⟩ := aheadAlike
    obtain rfl := reads.eq_of_wanted (·.isNotable = true) notable (by decide)
    rw [leadIn?, if_pos notable]
    exact .some ⟨passedAlike, rfl, .cons (.same _) ended following⟩
  | case3 passed token rest noNotable opens length closed ih =>
    obtain - | @⟨_, token', _, rest', reads, ended, following⟩ := aheadAlike
    obtain rfl := reads.eq_of_ne (by simp [opens])
    rw [leadIn?, if_neg noNotable, if_pos opens, ended opens, closed]
    refine ih ?_ (following.drop length)
    have inRun := List.forall₂_take length following.forall₂
    exact List.rel_append (List.rel_reverse inRun) (.cons reads passedAlike)
  | case4 passed token rest noNotable opens unclosed =>
    obtain - | @⟨_, token', _, rest', reads, ended, following⟩ := aheadAlike
    obtain rfl := reads.eq_of_ne (by simp [opens])
    rw [leadIn?, if_neg noNotable, if_pos opens, ended opens, unclosed]
    exact .none
  | case5 passed token rest noNotable noOpening disqualifying =>
    obtain - | @⟨_, token', _, rest', reads, ended, following⟩ := aheadAlike
    obtain rfl := reads.eq_of_wanted (·.isDisqualifying = true) disqualifying (by decide)
    rw [leadIn?, if_neg noNotable, if_neg noOpening, if_pos disqualifying]
    exact .none
  | case6 passed token rest noNotable noOpening noDisqualifying ih =>
    obtain - | @⟨_, token', _, rest', reads, ended, following⟩ := aheadAlike
    rw [← reads.agree (·.isNotable = true) Iff.rfl] at noNotable
    rw [← reads.agree (·.isDisqualifying = true) Iff.rfl] at noDisqualifying
    rw [← reads.agree (· = .opening .angle) (by simp)] at noOpening
    rw [leadIn?, if_neg noNotable, if_neg noOpening, if_neg noDisqualifying]
    exact ih (.cons reads passedAlike) following

theorem pointerName?_alike (group : Token) (alike : AheadAlike ahead ahead') :
    pointerName? group ahead' = pointerName? group ahead := by
  cases alike with
  | nil => rfl
  | @cons token token' rest rest' reads _ _ =>
    by_cases round : token.kind = .group .round
    · rw [reads.eq_of_ne (by simp [round])]
      rfl
    · have round' : token'.kind ≠ .group .round :=
        fun round' => round ((reads.agree (· = .group .round) (by simp)).1 round')
      rw [pointerName?, pointerName?, if_neg fun both => round' both.1,
        if_neg fun both => round both.1]

structure NameSite.Alike (site site' : NameSite) : Prop where
  name : site'.name = site.name
  holder : site'.holder = site.holder
  before : List.Forall₂ Token.ReadsAs site.before site'.before
  ahead : AheadAlike site.ahead site'.ahead

theorem LeadIn.nameSite?_alike (file : SourceFile) (entry : ScopeKind) {lead lead' : LeadIn}
    (alike : lead.Alike lead') :
    Option.Rel NameSite.Alike (lead.nameSite? file entry) (lead'.nameSite? file entry) := by
  obtain ⟨passed, notable, after⟩ := lead
  obtain ⟨passed', notable', after'⟩ := lead'
  obtain ⟨passedAlike, sameNotable, following⟩ := alike
  obtain rfl : notable' = notable := sameNotable
  have afterAlike := following.drop 1
  cases passedAlike with
  | nil => exact .none
  | @cons previous previous' before before' reads beforeAlike =>
    simp only [nameSite?]
    have samePointer := pointerName?_alike notable' afterAlike
    simp only [List.drop_succ_cons, List.drop_zero] at samePointer
    rw [samePointer]
    have isName := reads.agree (· = .identifier) (by simp)
    -- a name is no `>`, so both sites hold the same one
    have named (isName : previous.kind = .identifier) : NameSite.Alike
        ⟨previous, previous, before, notable' :: after⟩
        ⟨previous', previous', before', notable' :: after'⟩ := by
      obtain rfl := reads.eq_of_ne (by simp [isName])
      exact ⟨rfl, rfl, beforeAlike, following⟩
    simp only [isName]
    split
    · split
      · exact .some ⟨rfl, rfl, .cons reads beforeAlike, afterAlike⟩
      · split
        · rename_i accepted
          exact .some (named accepted.1)
        · exact .none
    · split
      · rename_i accepted
        exact .some (named accepted)
      · exact .none

structure Qualification.Alike (outer outer' : Qualification) : Prop where
  qualifiers : outer'.qualifiers = outer.qualifiers
  typeEnd : outer.typeEnd.ReadsAs outer'.typeEnd
  before : List.Forall₂ Token.ReadsAs outer.before outer'.before

theorem qualification?_alike {before before' : List Token}
    (alike : List.Forall₂ Token.ReadsAs before before') :
    Option.Rel Qualification.Alike (qualification? before) (qualification? before') := by
  fun_induction qualification? before generalizing before' with
  | case1 =>
    cases alike
    exact .none
  | case2 token colons =>
    obtain - | ⟨reads, - | _⟩ := alike
    rw [← reads.agree (· = .punct .doubleColon) (by simp)] at colons
    rw [qualification?, if_pos colons]
    exact .none
  | case3 token noColons =>
    obtain - | ⟨reads, - | _⟩ := alike
    rw [← reads.agree (· = .punct .doubleColon) (by simp)] at noColons
    rw [qualification?, if_neg noColons]
    exact .some ⟨rfl, reads, .nil⟩
  | case4 token name before colons isName ih =>
    obtain - | ⟨reads, - | @⟨_, _, _, before', readsName, beforeAlike⟩⟩ := alike
    obtain rfl := reads.eq_of_ne (by simp [colons])
    obtain rfl := readsName.eq_of_ne (by simp [isName])
    rw [qualification?, if_pos colons, if_pos isName]
    have outerAlike := ih beforeAlike
    generalize qualification? before = outer, qualification? before' = outer' at outerAlike ⊢
    cases outerAlike with
    | none => exact .none
    | some outerAlike =>
      obtain ⟨sameQualifiers, typeEnds, befores⟩ := outerAlike
      exact .some ⟨congrArg (_ :: ·) sameQualifiers, typeEnds, befores⟩
  | case5 token name before colons noName =>
    obtain - | ⟨reads, - | ⟨readsName, _⟩⟩ := alike
    rw [← reads.agree (· = .punct .doubleColon) (by simp)] at colons
    rw [← readsName.agree (· = .identifier) (by simp)] at noName
    rw [qualification?, if_pos colons, if_neg noName]
    exact .none
  | case6 token name before noColons =>
    obtain - | ⟨reads, - | ⟨readsName, beforeAlike⟩⟩ := alike
    rw [← reads.agree (· = .punct .doubleColon) (by simp)] at noColons
    rw [qualification?, if_neg noColons]
    exact .some ⟨rfl, reads, .cons readsName beforeAlike⟩

structure Declarator.Alike (declarator declarator' : Declarator) : Prop where
  site : declarator.site.Alike declarator'.site
  qualification : declarator.qualification.Alike declarator'.qualification

theorem Qualification.Alike.settled {outer outer' : Qualification} (alike : outer.Alike outer') :
    List.Forall₂ Token.ReadsAs outer.settled outer'.settled := by
  rw [Qualification.settled, Qualification.settled, alike.qualifiers]
  exact List.rel_append (Token.ReadsAs.forall₂_refl _) (.cons alike.typeEnd alike.before)

theorem Declarator.Alike.settled {declarator declarator' : Declarator}
    (alike : declarator.Alike declarator') :
    List.Forall₂ Token.ReadsAs declarator.settled declarator'.settled := by
  rw [Declarator.settled, Declarator.settled, alike.site.holder]
  exact .cons (.same _) alike.qualification.settled

theorem Declarator.Alike.following {declarator declarator' : Declarator}
    (alike : declarator.Alike declarator') : AheadAlike declarator.ahead declarator'.ahead :=
  alike.site.ahead

theorem Declarator.Alike.live {declarator declarator' : Declarator}
    (alike : declarator.Alike declarator') :
    List.Forall₂ Token.ReadsAs declarator.live declarator'.live :=
  List.rel_append (List.rel_reverse alike.settled) alike.following.forall₂

theorem Declarator.find?_alike (file : SourceFile) (entry : ScopeKind)
    (passedAlike : List.Forall₂ Token.ReadsAs passed passed')
    (aheadAlike : AheadAlike ahead ahead') :
    Option.Rel Declarator.Alike (find? file entry passed ahead)
      (find? file entry passed' ahead') := by
  have leadAlike := leadIn?_alike passedAlike aheadAlike
  unfold find?
  generalize leadIn? passed ahead = lead, leadIn? passed' ahead' = lead' at leadAlike ⊢
  cases leadAlike with
  | none => exact .none
  | @some lead lead' leadAlike =>
    have siteAlike := LeadIn.nameSite?_alike file entry leadAlike
    dsimp only
    generalize lead.nameSite? file entry = site, lead'.nameSite? file entry = site'
      at siteAlike ⊢
    cases siteAlike with
    | none => exact .none
    | @some site site' siteAlike =>
      have qualificationAlike := qualification?_alike siteAlike.before
      dsimp only
      generalize qualification? site.before = outer, qualification? site'.before = outer'
        at qualificationAlike ⊢
      cases qualificationAlike with
      | none => exact .none
      | some qualificationAlike => exact .some ⟨siteAlike, qualificationAlike⟩

theorem nextDeclarator?_alike (passedAlike : List.Forall₂ Token.ReadsAs passed passed')
    (aheadAlike : AheadAlike ahead ahead') :
    Option.Rel (fun next next' => List.Forall₂ Token.ReadsAs next.1 next'.1 ∧
        AheadAlike next.2 next'.2)
      (nextDeclarator? passed ahead) (nextDeclarator? passed' ahead') := by
  induction aheadAlike generalizing passed passed' with
  | nil => exact .none
  | @cons token token' rest rest' reads ended following ih =>
    have isStop := reads.agree TokenKind.IsStop (by simp [TokenKind.IsStop])
    by_cases stops : token.kind.IsStop
    · obtain rfl := reads.eq_of_wanted TokenKind.IsStop stops (by simp [TokenKind.IsStop])
      rcases stops with isComma | isEnd
      · simp only [nextDeclarator?, isComma]
        exact .some ⟨.cons reads passedAlike, following⟩
      · rw [nextDeclarator?_of_end isEnd, nextDeclarator?_of_end isEnd]
        exact .none
    · rw [nextDeclarator?_cons stops, nextDeclarator?_cons (mt isStop.1 stops)]
      exact ih (.cons reads passedAlike)

end Steps

namespace Declaration

theorem typeEnd?_alike {known known' : Option Token} {declarator declarator' : Declarator}
    (knownAlike : Option.Rel Token.ReadsAs known known') (alike : declarator.Alike declarator') :
    Option.Rel Token.ReadsAs (typeEnd? known declarator) (typeEnd? known' declarator') := by
  cases knownAlike with
  | some reads => exact .some reads
  | none =>
    have reads := alike.qualification.typeEnd
    have ends := reads.agree (endsType · = true) Iff.rfl
    simp only [typeEnd?, ends]
    split
    · exact .some reads
    · exact .none

theorem findIdx?_alike {tokens tokens' : List Token} (id : Nat)
    (alike : List.Forall₂ Token.ReadsAs tokens tokens') :
    tokens'.findIdx? (fun token => token.id = id) =
      tokens.findIdx? fun token => token.id = id := by
  induction alike with
  | nil => rfl
  | cons reads _ ih => rw [List.findIdx?_cons, List.findIdx?_cons, ih, reads.id_eq]

theorem getElem?_alike {tokens tokens' : List Token} (place : Nat)
    (alike : List.Forall₂ Token.ReadsAs tokens tokens') :
    Option.Rel Token.ReadsAs tokens[place]? tokens'[place]? := by
  induction alike generalizing place with
  | nil => exact .none
  | cons reads _ ih =>
    cases place with
    | zero => exact .some reads
    | succ place => exact ih place

theorem typeReference?_alike {live live' : List Token} {typeEnd typeEnd' : Token}
    (alike : List.Forall₂ Token.ReadsAs live live') (ends : typeEnd.ReadsAs typeEnd') :
    typeReference? live' typeEnd' = typeReference? live typeEnd := by
  unfold typeReference?
  rw [← alike.length_eq, ends.id_eq, ends.text_eq, findIdx?_alike typeEnd.id alike]
  simp only [ends.agree (· = .identifier) (by simp)]
  split
  · split
    · rename_i place _
      have tokenAlike := getElem?_alike place alike
      generalize live[place]? = token, live'[place]? = token' at tokenAlike ⊢
      cases tokenAlike with
      | none => rfl
      | some reads =>
        cases reads with
        | same => rfl
        | star closes => simp only [closes, Token.asStar]
    · rfl
  · rfl

structure Alike (declaration declaration' : Declaration) : Prop where
  declared : declaration'.declared = declaration.declared
  live : List.Forall₂ Token.ReadsAs declaration.live declaration'.live

theorem readFrom_alike (file : SourceFile) (entry : ScopeKind) {known known' : Option Token}
    {passed passed' ahead ahead' : List Token}
    (knownAlike : Option.Rel Token.ReadsAs known known')
    (passedAlike : List.Forall₂ Token.ReadsAs passed passed')
    (aheadAlike : AheadAlike ahead ahead') :
    Alike (readFrom file entry known passed ahead) (readFrom file entry known' passed' ahead') := by
  have unread : List.Forall₂ Token.ReadsAs (passed.reverse ++ ahead) (passed'.reverse ++ ahead') :=
    List.rel_append (List.rel_reverse passedAlike) aheadAlike.forall₂
  have foundAlike := Declarator.find?_alike file entry passedAlike aheadAlike
  rw [readFrom_eq, readFrom_eq]
  generalize found : Declarator.find? file entry passed ahead = declarator,
    Declarator.find? file entry passed' ahead' = declarator' at foundAlike ⊢
  cases foundAlike with
  | none => exact ⟨rfl, unread⟩
  | @some declarator declarator' alike =>
    have endAlike := typeEnd?_alike knownAlike alike
    dsimp only
    generalize typeEnd? known declarator = typeEnd, typeEnd? known' declarator' = typeEnd'
      at endAlike ⊢
    cases endAlike with
    | none => exact ⟨rfl, unread⟩
    | @some typeEnd typeEnd' ends =>
      have nextAlike := nextDeclarator?_alike alike.settled alike.following
      dsimp only
      -- only the end of the type can be the star, and no reference shows it
      have sameVariable : (⟨declarator'.name, declarator'.qualifiers,
            typeReference? declarator'.live typeEnd'⟩ : Variable) =
          ⟨declarator.name, declarator.qualifiers,
            typeReference? declarator.live typeEnd⟩ := by
        rw [Declarator.name, Declarator.qualifiers, alike.site.name,
          alike.qualification.qualifiers, typeReference?_alike alike.live ends]
        rfl
      rw [sameVariable]
      generalize next : nextDeclarator? declarator.settled declarator.ahead = following,
        nextDeclarator? declarator'.settled declarator'.ahead = following' at nextAlike ⊢
      cases nextAlike with
      | none => exact ⟨rfl, alike.live⟩
      | @some following following' nextAlike =>
        have shorter : following.2.length < ahead.length := by
          have := Declarator.length_of_find? found
          have := length_of_nextDeclarator? next
          omega
        have others := readFrom_alike file entry (.some ends) nextAlike.1 nextAlike.2
        exact ⟨congrArg (_ :: ·) others.declared, others.live⟩
termination_by ahead.length

theorem read_alike (file : SourceFile) (entry : ScopeKind) {live live' : List Token}
    (alike : AheadAlike live live') : Alike (read file entry live) (read file entry live') := by
  cases alike with
  | nil => exact ⟨rfl, .nil⟩
  | cons reads ended following =>
    simp only [read, reads.agree (·.isWord = true) Iff.rfl]
    split
    · exact readFrom_alike file entry .none .nil (.cons reads ended following)
    · exact ⟨rfl, (AheadAlike.cons reads ended following).forall₂⟩

end Declaration

namespace Chain

theorem exists_leadIn?_of_found {σ : Type} {sink : Sink σ} {file : SourceFile}
    {storage : Storage} {chain : Chain} {scopes : ScopeStack} {state : σ}
    (found : (chain.scan sink file storage scopes state).found = true) :
    ∃ lead, leadIn? [] chain.live = some lead := by
  rw [found_scan, Bool.not_eq_true', List.isEmpty_eq_false_iff, Declaration.read_declares_iff,
    Declaration.readFrom_declares_iff] at found
  obtain ⟨_, declarator, isFound, _⟩ := found
  obtain ⟨lead, isLead, _⟩ := Declarator.find?_eq_some_iff.1 isFound
  exact ⟨lead, isLead⟩

/-- Where a tag is begun, every `<` of the first lead-in is closed within it.  A
`>` that no run of the live tokens ends in disqualifies nothing: with a star in
its place the scan finds the same variables, gives the sink the same offers and
tags, and leaves the same tokens live but for the star. -/
theorem scan_strayCloser {σ : Type} (sink : Sink σ) (file : SourceFile) (storage : Storage)
    (chain : Chain) (scopes : ScopeStack) (state : σ) :
    let outcome := chain.scan sink file storage scopes state
    (outcome.found = true → ∃ lead, leadIn? [] chain.live = some lead ∧
      AngleRun.AllClosed lead.passed.reverse) ∧
    ∀ front closer back, chain.live = front ++ closer :: back →
      closer.kind = .closing .angle →
      (∀ start, ¬ AngleRun.RunsTo chain.live start front.length) →
      let starred := { chain with live := front ++ closer.asStar :: back }.scan sink file storage
        scopes state
      starred.found = outcome.found ∧ starred.state = outcome.state ∧
        List.Forall₂ Token.ReadsAs outcome.chain.live starred.chain.live := by
  refine ⟨?_, ?_⟩
  · intro found
    obtain ⟨lead, isLead⟩ := exists_leadIn?_of_found found
    obtain ⟨front, pieces, _, _, isPassed⟩ := leadIn?_eq_some_iff.1 isLead
    refine ⟨lead, isLead, ?_⟩
    rw [isPassed, List.append_nil, List.reverse_reverse]
    exact AngleRun.allClosed_of_pieces rfl pieces
  · intro front closer back live closes unmatched
    rw [live] at unmatched
    have alike := Declaration.read_alike file scopes.currentKind
      (AheadAlike.of_unmatched closes unmatched)
    simp only [scan, live, alike.declared]
    exact ⟨trivial, trivial, alike.live⟩

def comparisonText : String := "a > b;"

def comparisonLexemes : List Lexeme :=
  [⟨.word, "a", .ofLength 0 1⟩, ⟨.closing .angle, ">", .ofLength 2 1⟩,
    ⟨.word, "b", .ofLength 4 1⟩, ⟨.punct .semicolon, ";", .ofLength 5 1⟩]

theorem lex_comparisonText : lex comparisonText = .ok comparisonLexemes := by cbv

def comparisonChain : Chain := .ofLexemes .cpp ⟨[]⟩ comparisonLexemes

theorem tokenize_comparisonText : tokenize comparisonText .cpp = .ok comparisonChain := by
  simp only [tokenize, lex_comparisonText]
  rfl

def comparisonLeft : Token := ⟨0, .identifier, "a", .ofLength 0 1, ⟨0, 0⟩, []⟩

def comparisonCloser : Token := ⟨1, .closing .angle, ">", .ofLength 2 1, ⟨0, 2⟩, []⟩

def comparisonRight : Token := ⟨2, .identifier, "b", .ofLength 4 1, ⟨0, 4⟩, []⟩

def comparisonStop : Token := ⟨3, .punct .semicolon, ";", .ofLength 5 1, ⟨0, 5⟩, []⟩

theorem live_comparisonChain : comparisonChain.live =
    [comparisonLeft] ++ comparisonCloser :: [comparisonRight, comparisonStop] := by
  rfl

theorem unmatched_comparisonCloser (start stop : Nat) :
    ¬ AngleRun.RunsTo comparisonChain.live start stop := by
  intro runs
  obtain ⟨before, opening, inner, split, _, opens⟩ := runs.exists_split
  have member : opening ∈ comparisonChain.live := by simp [split]
  rw [live_comparisonChain] at member
  simp only [List.cons_append, List.nil_append, List.mem_cons, List.not_mem_nil, or_false]
    at member
  rcases member with rfl | rfl | rfl | rfl <;> cases opens

theorem scan_strayCloser_comparison :
    let outcome := comparisonChain.scan Collector.sink ⟨.cpp, false⟩ ⟨false, false⟩ .empty
      (.empty TagKind.all)
    let starred := { comparisonChain with
        live := [comparisonLeft] ++ comparisonCloser.asStar :: [comparisonRight, comparisonStop]
      }.scan Collector.sink ⟨.cpp, false⟩ ⟨false, false⟩ .empty (.empty TagKind.all)
    outcome.found = true ∧
      (∃ lead, leadIn? [] comparisonChain.live = some lead ∧
        AngleRun.AllClosed lead.passed.reverse) ∧
      starred.found = outcome.found ∧ starred.state.tags = outcome.state.tags := by
  have found : (comparisonChain.scan Collector.sink ⟨.cpp, false⟩ ⟨false, false⟩ .empty
      (.empty TagKind.all)).found = true := by decide +kernel
  obtain ⟨leadIn, starred⟩ := scan_strayCloser Collector.sink ⟨.cpp, false⟩ ⟨false, false⟩
    comparisonChain .empty (.empty TagKind.all)
  obtain ⟨sameFound, sameState, _⟩ := starred _ _ _ live_comparisonChain rfl
    fun start => unmatched_comparisonCloser start _
  exact ⟨found, leadIn found, sameFound, congrArg Collector.tags sameState⟩

/-- A tag is begun for `b`, although the `>` of its lead-in closes nothing. -/
theorem stray_closer_declares :
    tokenize comparisonText .cpp = .ok comparisonChain ∧
      leadIn? [] comparisonChain.live =
        some ⟨[comparisonRight, comparisonCloser, comparisonLeft], comparisonStop, []⟩ ∧
      comparisonCloser.kind = .closing .angle ∧
      (∀ start stop, ¬ AngleRun.RunsTo comparisonChain.live start stop) ∧
      (comparisonChain.offers Collector.sink ⟨.cpp, false⟩ ⟨false, false⟩ .empty
        (.empty TagKind.all)).map Offer.name = ["b"] := by
  refine ⟨tokenize_comparisonText, ?_, rfl, unmatched_comparisonCloser, by decide +kernel⟩
  rw [live_comparisonChain]
  simp [leadIn?, comparisonLeft, comparisonCloser, comparisonRight, comparisonStop,
    TokenKind.isNotable, TokenKind.isDisqualifying, TokenKind.isUnmatchedCloser]

end Chain

end DeclScan
