import Mathlib
import DeclScan.Proofs.Independence

/-!
# The history of a session

A session carries nothing from one statement to the next but its scopes and the
tags collected so far.  What a statement adds is what it would add at the very
beginning, in the scopes that were entered and left before it:
`Session.tags_run`.
-/

set_option autoImplicit false

namespace DeclScan

theorem Collector.offerAll_sink (context : Scan.Context) (scopes : ScopeStack)
    (found : List Variable) (collector : Collector) :
    Scan.offerAll sink context scopes found collector =
      { collector with
        tags := collector.tags ++
          ((found.filter fun declared =>
              (context.offered scopes declared).kind ∈ collector.accepted).map fun declared =>
            context.complete declared (context.offered scopes declared).tag).toArray } := by
  induction found generalizing collector with
  | nil => simp [Scan.offerAll]
  | cons declared rest ih =>
    have step : Scan.offerAll sink context scopes (declared :: rest) collector =
        Scan.offerAll sink context scopes rest
          (Scan.offerTo sink context (Scan.enterQualifiers scopes declared.qualifiers) declared
            collector) := rfl
    rw [step, offerTo_sink]
    by_cases isAccepted : (context.offered scopes declared).kind ∈ collector.accepted
    · have isOffered : (context.offer (Scan.enterQualifiers scopes declared.qualifiers)
          declared).kind ∈ collector.accepted := isAccepted
      rw [if_pos isOffered, ih]
      simp only [List.filter_cons, isAccepted, decide_true, if_true, List.map_cons]
      rw [List.toArray_cons, ← Array.append_assoc, Array.append_singleton]
      rfl
    · have isRefused : (context.offer (Scan.enterQualifiers scopes declared.qualifiers)
          declared).kind ∉ collector.accepted := isAccepted
      rw [if_neg isRefused, ih]
      simp [isAccepted]

namespace Chain

/-- What a collector holds already has no influence on what is added to it. -/
theorem scan_collector (file : SourceFile) (storage : Storage) (chain : Chain)
    (scopes : ScopeStack) (collector : Collector) :
    (chain.scan Collector.sink file storage scopes collector).state =
      { collector with
        tags := collector.tags ++
          (chain.scan Collector.sink file storage scopes
            (.empty collector.accepted)).state.tags } := by
  rw [state_scan, state_scan, Collector.offerAll_sink, Collector.offerAll_sink, Collector.empty,
    Array.empty_append]

end Chain

namespace Session

inductive Event where
  | enter (frame : ScopeFrame)
  | leave
  | scan (source : String)

section Run

variable {σ : Type} (sink : Sink σ)

def apply (session : Session σ) : Event → Session σ
  | .enter frame => session.enter frame
  | .leave => session.leave
  | .scan source => session.after sink source

def run (session : Session σ) (events : List Event) : Session σ :=
  events.foldl (apply sink) session

end Run

/-- The scopes around what follows these events, for which statements do not
count. -/
def scopesAfter (scopes : ScopeStack) : List Event → ScopeStack
  | [] => scopes
  | .enter frame :: rest => scopesAfter (scopes.push frame) rest
  | .leave :: rest => scopesAfter scopes.pop rest
  | .scan _ :: rest => scopesAfter scopes rest

def statements (scopes : ScopeStack) : List Event → List (ScopeStack × String)
  | [] => []
  | .enter frame :: rest => statements (scopes.push frame) rest
  | .leave :: rest => statements scopes.pop rest
  | .scan source :: rest => (scopes, source) :: statements scopes rest

/-- The tags that a statement commits on its own, to a collector that is still
empty. -/
def tagsAlone (file : SourceFile) (kinds : List TagKind) (scopes : ScopeStack)
    (source : String) : List Tag :=
  (after Collector.sink ⟨file, scopes, .empty kinds⟩ source).state.tags.toList

section Statement

variable (file : SourceFile) (scopes : ScopeStack)

theorem after_of_fault {σ : Type} (sink : Sink σ) (session : Session σ) {source : String}
    {fault : LexFault} (unread : lex source = .error fault) :
    session.after sink source = session := by
  simp only [after, scan, scanStatement, tokenize, unread]

theorem tagsAlone_of_fault (kinds : List TagKind) {source : String} {fault : LexFault}
    (unread : lex source = .error fault) : tagsAlone file kinds scopes source = [] := by
  rw [tagsAlone, after_of_fault _ _ unread]
  rfl

theorem after_collector (collector : Collector) (source : String) :
    after Collector.sink ⟨file, scopes, collector⟩ source =
      ⟨file, scopes,
        { collector with
          tags := collector.tags ++
            (tagsAlone file collector.accepted scopes source).toArray }⟩ := by
  cases tokenized : tokenize source file.language with
  | error fault =>
    have unchanged (collector : Collector) :
        after Collector.sink ⟨file, scopes, collector⟩ source = ⟨file, scopes, collector⟩ := by
      simp only [after, scan, scanStatement, tokenized]
    rw [tagsAlone, unchanged, unchanged]
    simp [Collector.empty]
  | ok chain =>
    have scanned (collector : Collector) :
        after Collector.sink ⟨file, scopes, collector⟩ source =
          ⟨file, scopes,
            (chain.scan Collector.sink file (.ofTokens chain.live) scopes collector).state⟩ := by
      simp only [after, scan, scanStatement, tokenized, Chain.scopes_scan]
    rw [tagsAlone, scanned, scanned, Array.toArray_toList, Chain.scan_collector]

/-- Whether a statement declares a variable does not depend on the collector. -/
theorem answer_scan (collector collector' : Collector) (source : String) :
    (scan Collector.sink ⟨file, scopes, collector⟩ source).map Prod.fst =
      (scan Collector.sink ⟨file, scopes, collector'⟩ source).map Prod.fst := by
  cases tokenized : tokenize source file.language with
  | error fault => simp only [scan, scanStatement, tokenized, Except.map]
  | ok chain => simp only [scan, scanStatement, tokenized, Except.map, Chain.found_scan]

end Statement

theorem statements_append (scopes : ScopeStack) (front back : List Event) :
    statements scopes (front ++ back) =
      statements scopes front ++ statements (scopesAfter scopes front) back := by
  induction front generalizing scopes with
  | nil => rfl
  | cons event rest ih =>
    cases event with
    | enter frame => exact ih _
    | leave => exact ih _
    | scan source => exact congrArg _ (ih _)

theorem scopesAfter_append (scopes : ScopeStack) (front back : List Event) :
    scopesAfter scopes (front ++ back) = scopesAfter (scopesAfter scopes front) back := by
  induction front generalizing scopes with
  | nil => rfl
  | cons event rest ih => cases event <;> exact ih _

def tagsOf (file : SourceFile) (kinds : List TagKind)
    (statements : List (ScopeStack × String)) : List Tag :=
  statements.flatMap fun statement => tagsAlone file kinds statement.1 statement.2

theorem run_collector (file : SourceFile) (scopes : ScopeStack) (collector : Collector)
    (events : List Event) :
    run Collector.sink ⟨file, scopes, collector⟩ events =
      ⟨file, scopesAfter scopes events,
        { collector with
          tags := collector.tags ++
            (tagsOf file collector.accepted (statements scopes events)).toArray }⟩ := by
  induction events generalizing scopes collector with
  | nil => simp [run, tagsOf, scopesAfter, statements]
  | cons event rest ih =>
    cases event with
    | enter frame => exact ih _ _
    | leave => exact ih _ _
    | scan source =>
      have step : run Collector.sink ⟨file, scopes, collector⟩ (.scan source :: rest) =
          run Collector.sink (after Collector.sink ⟨file, scopes, collector⟩ source) rest := rfl
      rw [step, after_collector, ih]
      simp [tagsOf, scopesAfter, statements]

/-- A session collects what each of its statements commits on its own, one after
the other, where only the scopes entered and left before a statement count.  A
statement that cannot be read adds nothing.  Two statements in a row may change
places, and then only their tags do.  Nor does the history show in the answer to
the next statement, but for its scopes. -/
theorem tags_run (file : SourceFile) (scopes : ScopeStack) (collector : Collector)
    (events : List Event) :
    let own := tagsAlone file collector.accepted
    let ended := run Collector.sink ⟨file, scopes, collector⟩
    ((ended events).state.tags.toList =
        collector.tags.toList ++ tagsOf file collector.accepted (statements scopes events)) ∧
      (ended events).scopes = scopesAfter scopes events ∧
      (∀ (inside : ScopeStack) (source : String) (fault : LexFault),
        lex source = .error fault → own inside source = []) ∧
      (∀ (front back : List Event) (first second : String),
        let inside := scopesAfter scopes front
        let earlier := (ended front).state.tags.toList
        let one := ended (front ++ .scan first :: .scan second :: back)
        let other := ended (front ++ .scan second :: .scan first :: back)
        ∃ later : List Tag,
          one.state.tags.toList = earlier ++ own inside first ++ own inside second ++ later ∧
          other.state.tags.toList = earlier ++ own inside second ++ own inside first ++ later ∧
          one.scopes = other.scopes) ∧
      ∀ source : String,
        (scan Collector.sink (ended events) source).map Prod.fst =
          (scan Collector.sink ⟨file, scopesAfter scopes events, .empty collector.accepted⟩
            source).map Prod.fst := by
  refine ⟨?_, ?_, ?_, ?_, ?_⟩
  · simp [run_collector]
  · rw [run_collector]
  · intro inside source fault unread
    exact tagsAlone_of_fault file inside collector.accepted unread
  · intro front back first second
    refine ⟨tagsOf file collector.accepted (statements (scopesAfter scopes front) back), ?_, ?_, ?_⟩
    · simp [run_collector, statements_append, statements, tagsOf]
    · simp [run_collector, statements_append, statements, tagsOf]
    · simp only [run_collector, scopesAfter_append, scopesAfter]
  · intro source
    rw [run_collector]
    exact answer_scan file _ _ _ source

/-- The second statement cannot be read, and the scope is left again before the
last one. -/
example :
    (run Collector.sink ⟨⟨.cpp, false⟩, .empty, .empty TagKind.all⟩
        [.enter ⟨"box", .inStruct, .unknown, none⟩, .scan "int a;", .scan "int 'b;", .leave,
          .scan "int c;"]).state.tags.map (fun tag => (tag.name, tag.scope)) =
      #[("a", some "box"), ("c", none)] := by
  decide +kernel

end Session

end DeclScan
