import Mathlib
import DeclScan.Proofs.ParameterPlaces

/-!
# What parameter lists consist of

A parameter starts with a word or a pair of colons and goes on with the tokens
of types and declarators, and with angle runs that hold anything; a default
value may follow it.  Parameters are separated by commas, and the last one may
be an ellipsis.  `Signature.looksLikeParameters_iff_parameterList` says that
exactly these lists are accepted.
-/

set_option autoImplicit false

namespace DeclScan

inductive PlainParameter : List Token → Prop where
  | start {first : Token} {rest : List Token} :
      Signature.opensParameter first.kind = true →
      Pieces Signature.continuesParameter rest → PlainParameter (first :: rest)

inductive Parameter : List Token → Prop where
  | plain {tokens : List Token} : PlainParameter tokens → Parameter tokens
  | withDefault {tokens value : List Token} {assign : Token} :
      PlainParameter tokens → assign.kind = .punct .assign →
      (∀ token ∈ value, token.kind ≠ .punct .comma) → Parameter (tokens ++ assign :: value)

/-- Parameters with a comma between any two, perhaps with an ellipsis in place
of the last one. -/
inductive ParameterList : List Token → Prop where
  | ellipsis {token : Token} : token.kind = .punct .ellipsis → ParameterList [token]
  | last {tokens : List Token} : Parameter tokens → ParameterList tokens
  | more {tokens rest : List Token} {comma : Token} : Parameter tokens →
      comma.kind = .punct .comma → ParameterList rest → ParameterList (tokens ++ comma :: rest)

/-- What follows these tokens stands in no angle run and in no default value.  A
default value ends at the next comma. -/
inductive Outside : List Token → Prop where
  | nil : Outside []
  | token {token : Token} {rest : List Token} : token.kind ≠ .opening .angle →
      token.kind ≠ .punct .assign → Outside rest → Outside (token :: rest)
  | run {run rest : List Token} : AngleRun.IsRun run → Outside rest → Outside (run ++ rest)
  | value {value rest : List Token} {assign comma : Token} : assign.kind = .punct .assign →
      (∀ token ∈ value, token.kind ≠ .punct .comma) → comma.kind = .punct .comma →
      Outside rest → Outside (assign :: (value ++ comma :: rest))

structure StartsBehind (front : List Token) : Prop where
  outside : Outside front
  separated : ∀ last ∈ front.getLast?, last.kind = .punct .comma

def TokenKind.IsForeign (kind : TokenKind) : Prop :=
  kind.isConstant = true ∨ kind = .punct .other ∨ kind = .punct .arrow ∨ kind = .closing .angle

inductive Misplaced : List Token → Prop where
  | trailingComma {front : List Token} {comma : Token} :
      comma.kind = .punct .comma → Misplaced (front ++ [comma])
  | emptyParameter {front rest : List Token} {comma : Token} : StartsBehind front →
      comma.kind = .punct .comma → Misplaced (front ++ comma :: rest)
  | innerEllipsis {front rest : List Token} {ellipsis next : Token} : StartsBehind front →
      ellipsis.kind = .punct .ellipsis → Misplaced (front ++ ellipsis :: next :: rest)
  | foreign {front rest : List Token} {token : Token} : Outside front →
      token.kind.IsForeign → Misplaced (front ++ token :: rest)
  | unclosed {front rest : List Token} {token : Token} : Outside front →
      token.kind = .opening .angle → (∀ run, AngleRun.IsRun run → ¬ run <+: token :: rest) →
      Misplaced (front ++ token :: rest)

namespace Signature

theorem opensParameter_iff {kind : TokenKind} :
    opensParameter kind = true ↔
      kind = .identifier ∨ (∃ keyword, kind = .keyword keyword) ∨ kind = .punct .doubleColon := by
  cases kind with
  | punct punctuator => cases punctuator <;> simp [opensParameter]
  | _ => simp [opensParameter]

theorem continuesParameter_iff {kind : TokenKind} :
    continuesParameter kind = true ↔
      kind = .identifier ∨ (∃ keyword, kind = .keyword keyword) ∨ kind = .punct .star ∨
        kind = .punct .ampersand ∨ kind = .punct .doubleAmpersand ∨
        kind = .punct .doubleColon ∨ kind = .punct .ellipsis ∨ kind = .group .round ∨
        kind = .group .square ∨ kind = .group .angle := by
  cases kind with
  | punct punctuator => cases punctuator <;> simp [continuesParameter]
  | group bracket => cases bracket <;> simp [continuesParameter]
  | _ => simp [continuesParameter]

end Signature

namespace PlainParameter

variable {front back : List Token}

theorem append (plain : PlainParameter front)
    (pieces : Pieces Signature.continuesParameter back) : PlainParameter (front ++ back) := by
  obtain ⟨opens, rest⟩ := plain
  exact .start opens (rest.append pieces)

theorem last_ne_comma (plain : PlainParameter front) {last : Token}
    (isLast : last ∈ front.getLast?) : last.kind ≠ .punct .comma := by
  intro isComma
  cases plain with
  | @start first rest opens pieces =>
    cases rest with
    | nil =>
      obtain rfl : first = last := by simpa using isLast
      rw [isComma] at opens
      cases opens
    | cons second others =>
      have isLastOther : last ∈ (second :: others).getLast? := by simpa using isLast
      rcases pieces.last_cases isLastOther with continues | closes
      · rw [isComma] at continues
        cases continues
      · rw [isComma] at closes
        cases closes

end PlainParameter

theorem Parameter.last_ne_comma {tokens : List Token} (parameter : Parameter tokens) {last : Token}
    (isLast : last ∈ tokens.getLast?) : last.kind ≠ .punct .comma := by
  cases parameter with
  | plain plain => exact plain.last_ne_comma isLast
  | @withDefault tokens value assign _ isAssign noComma =>
    rw [List.getLast?_append_cons] at isLast
    have isMember := List.mem_of_getLast? isLast
    rcases List.mem_cons.1 isMember with rfl | inValue
    · simp [isAssign]
    · exact noComma last inValue

theorem ParameterList.ne_nil {tokens : List Token} (list : ParameterList tokens) : tokens ≠ [] := by
  cases list with
  | ellipsis => simp
  | last parameter =>
    cases parameter with
    | plain plain => cases plain; simp
    | withDefault => simp
  | more => simp

theorem ParameterList.last_ne_comma {tokens : List Token} (list : ParameterList tokens)
    {last : Token} (isLast : last ∈ tokens.getLast?) : last.kind ≠ .punct .comma := by
  induction list with
  | ellipsis isEllipsis =>
    obtain rfl : _ = last := by simpa using isLast
    simp [isEllipsis]
  | last parameter => exact parameter.last_ne_comma isLast
  | @more tokens rest comma _ _ list ih =>
    obtain ⟨first, others, rfl⟩ := List.exists_cons_of_ne_nil list.ne_nil
    apply ih
    simpa using isLast

namespace Signature

variable {token : Token} {front ahead tail : List Token}

/-- A default value runs to the next comma, if there is one. -/
theorem comma_cases (tokens : List Token) :
    (∀ token ∈ tokens, token.kind ≠ .punct .comma) ∨
      ∃ value comma rest, tokens = value ++ comma :: rest ∧
        (∀ token ∈ value, token.kind ≠ .punct .comma) ∧ comma.kind = .punct .comma := by
  induction tokens with
  | nil => exact .inl nofun
  | cons token rest ih =>
    by_cases isComma : token.kind = .punct .comma
    · exact .inr ⟨[], token, rest, rfl, nofun, isComma⟩
    rcases ih with none | ⟨value, comma, others, rfl, none, found⟩
    · exact .inl (List.forall_mem_cons.2 ⟨isComma, none⟩)
    · exact .inr ⟨token :: value, comma, others, rfl, List.forall_mem_cons.2 ⟨isComma, none⟩, found⟩

/-- A default value is passed as a whole, and the list may end with it. -/
theorem parameterRest_of_assign (isAssign : token.kind = .punct .assign) {place? : Option Nat}
    (found : (ahead.findIdx? fun next => next.kind = .punct .comma) = place?) :
    parameterRest (token :: ahead) =
      place?.elim true fun place => parameters (ahead.drop (place + 1)) := by
  rw [parameterRest]
  cases place? with
  | none => simp [isAssign, continuesParameter, found]
  | some place => simp [isAssign, continuesParameter, found]

theorem parameterRest_of_default {value : List Token} {comma : Token}
    (isAssign : token.kind = .punct .assign)
    (noComma : ∀ token ∈ value, token.kind ≠ .punct .comma) (isComma : comma.kind = .punct .comma) :
    parameterRest (token :: (value ++ comma :: ahead)) = parameters ahead := by
  have nextComma : ((value ++ comma :: ahead).findIdx? fun next => next.kind = .punct .comma) =
      some value.length := by
    have absent : (value.findIdx? fun next => next.kind = .punct .comma) = none :=
      List.findIdx?_eq_none_iff.2 (by simpa using noComma)
    rw [List.findIdx?_append, absent, List.findIdx?_cons, if_pos (by simp [isComma])]
    simp
  have behind : (value ++ comma :: ahead).drop (value.length + 1) = ahead := by
    rw [← List.drop_drop, List.drop_left, List.drop_succ_cons, List.drop_zero]
  rw [parameterRest_of_assign isAssign nextComma, Option.elim_some, behind]

theorem parameterRest_of_last_default (isAssign : token.kind = .punct .assign)
    (noComma : ∀ next ∈ ahead, next.kind ≠ .punct .comma) :
    parameterRest (token :: ahead) = true := by
  have absent : (ahead.findIdx? fun next => next.kind = .punct .comma) = none :=
    List.findIdx?_eq_none_iff.2 (by simpa using noComma)
  rw [parameterRest_of_assign isAssign absent, Option.elim_none]

theorem parameterRest_of_comma (isComma : token.kind = .punct .comma) :
    parameterRest (token :: ahead) = parameters ahead := by
  rw [parameterRest, if_pos isComma]

theorem parameterRest_of_run {run : List Token} (isRun : AngleRun.IsRun run) :
    parameterRest (run ++ ahead) = parameterRest ahead := by
  obtain ⟨opening, inner, rfl, opens, closed⟩ := isRun.exists_cons
  rw [List.cons_append, parameterRest, if_neg (by simp [opens]),
    if_neg (by simp [opens, continuesParameter]), if_pos opens, closed]
  simp only [List.drop_left]

theorem parameterRest_of_pieces (pieces : Pieces continuesParameter front) :
    parameterRest (front ++ ahead) = parameterRest ahead := by
  induction pieces with
  | nil => rfl
  | token continues _ ih => rw [List.cons_append, parameterRest_of_continues continues, ih]
  | run isRun _ ih => rw [List.append_assoc, parameterRest_of_run isRun, ih]

/-! ## Accepted lists are parameter lists -/

/-- What is accepted as parameters, and what is accepted behind the start of a
parameter. -/
structure AcceptsOnly (tokens : List Token) : Prop where
  start : parameters tokens = true → ParameterList tokens
  rest : ∀ {front : List Token}, PlainParameter front → parameterRest tokens = true →
    ParameterList (front ++ tokens)

theorem parameterList_of_rest (later : ∀ others, others <:+ ahead → AcceptsOnly others)
    (plain : PlainParameter front) (accepted : parameterRest (token :: ahead) = true) :
    ParameterList (front ++ token :: ahead) := by
  have next : AcceptsOnly ahead := later ahead (List.suffix_refl ahead)
  by_cases isComma : token.kind = .punct .comma
  · rw [parameterRest_of_comma isComma] at accepted
    exact .more (.plain plain) isComma (next.start accepted)
  by_cases continues : continuesParameter token.kind = true
  · rw [parameterRest_of_continues continues] at accepted
    have longer := next.rest (plain.append (.token continues .nil)) accepted
    rwa [List.append_assoc] at longer
  by_cases isAssign : token.kind = .punct .assign
  · rcases comma_cases ahead with noComma | ⟨value, comma, rest, rfl, noComma, isComma⟩
    · exact .last (.withDefault plain isAssign noComma)
    · rw [parameterRest_of_default isAssign noComma isComma] at accepted
      have isSuffix : rest <:+ value ++ comma :: rest := ⟨value ++ [comma], by simp⟩
      have list : ParameterList ((front ++ token :: value) ++ comma :: rest) :=
        .more (.withDefault plain isAssign noComma) isComma ((later rest isSuffix).start accepted)
      simpa using list
  rw [parameterRest, if_neg isComma, if_neg continues] at accepted
  by_cases opens : token.kind = .opening .angle
  · rw [if_pos opens] at accepted
    split at accepted
    · rename_i length closed
      have run : Pieces continuesParameter ((token :: ahead.take length) ++ []) :=
        .run (AngleRun.isRun_of_length? opens closed) .nil
      have longer := (later _ (List.drop_suffix length ahead)).rest (plain.append run) accepted
      simpa using longer
    · cases accepted
  · rw [if_neg opens, if_neg isAssign] at accepted
    cases accepted

theorem parameterList_of_start (next : AcceptsOnly ahead)
    (accepted : parameters (token :: ahead) = true) : ParameterList (token :: ahead) := by
  rw [parameters] at accepted
  by_cases isEllipsis : token.kind = .punct .ellipsis
  · rw [if_pos isEllipsis] at accepted
    obtain rfl := List.isEmpty_iff.1 accepted
    exact .ellipsis isEllipsis
  rw [if_neg isEllipsis] at accepted
  by_cases opens : opensParameter token.kind = true
  · rw [if_pos opens] at accepted
    exact next.rest (.start opens .nil) accepted
  · rw [if_neg opens] at accepted
    cases accepted

theorem acceptsOnly (tokens : List Token) : AcceptsOnly tokens := by
  induction size : tokens.length using Nat.strongRecOn generalizing tokens with
  | ind length ih =>
    cases tokens with
    | nil =>
      refine ⟨fun accepted => ?_, fun plain _ => ?_⟩
      · rw [parameters] at accepted
        cases accepted
      · rw [List.append_nil]
        exact .last (.plain plain)
    | cons token ahead =>
      have later (others : List Token) (isSuffix : others <:+ ahead) : AcceptsOnly others := by
        refine ih others.length ?_ others rfl
        rw [← size]
        exact Nat.lt_succ_of_le isSuffix.length_le
      exact ⟨parameterList_of_start (later ahead (List.suffix_refl ahead)),
        parameterList_of_rest later⟩

/-! ## Parameter lists are accepted -/

theorem parameters_of_plain (plain : PlainParameter front) :
    parameters (front ++ ahead) = parameterRest ahead := by
  cases plain with
  | @start first rest opens pieces =>
    have noEllipsis : first.kind ≠ .punct .ellipsis := by
      intro isEllipsis
      rw [isEllipsis] at opens
      cases opens
    rw [List.cons_append, parameters, if_neg noEllipsis, if_pos opens,
      parameterRest_of_pieces pieces]

theorem parameters_of_parameter (parameter : Parameter front) : parameters front = true := by
  cases parameter with
  | plain plain =>
    rw [← List.append_nil front, parameters_of_plain plain, parameterRest]
  | withDefault plain isAssign noComma =>
    rw [parameters_of_plain plain, parameterRest_of_last_default isAssign noComma]

theorem parameters_of_separated (parameter : Parameter front) (isComma : token.kind = .punct .comma) :
    parameters (front ++ token :: ahead) = parameters ahead := by
  cases parameter with
  | plain plain => rw [parameters_of_plain plain, parameterRest_of_comma isComma]
  | withDefault plain isAssign noComma =>
    rw [List.append_assoc, List.cons_append, parameters_of_plain plain,
      parameterRest_of_default isAssign noComma isComma]

theorem parameters_iff_parameterList {tokens : List Token} :
    parameters tokens = true ↔ ParameterList tokens := by
  constructor
  · exact (acceptsOnly tokens).start
  · intro list
    induction list with
    | ellipsis isEllipsis => rw [parameters, if_pos isEllipsis, List.isEmpty_nil]
    | last parameter => exact parameters_of_parameter parameter
    | more parameter isComma _ ih => rw [parameters_of_separated parameter isComma, ih]

/-! ## Rejected lists -/

structure Rejects (tokens : List Token) : Prop where
  start : parameters tokens = false
  rest : parameterRest tokens = false

theorem ne_nil_of_rejected (stops : parameterRest tail = false) : tail ≠ [] := by
  rintro rfl
  rw [parameterRest] at stops
  cases stops

theorem parameters_of_unopened (noEllipsis : token.kind ≠ .punct .ellipsis)
    (closed : opensParameter token.kind = false) : parameters (token :: ahead) = false := by
  rw [parameters, if_neg noEllipsis, closed]
  rfl

theorem rejects_cons (noOpening : token.kind ≠ .opening .angle)
    (noAssign : token.kind ≠ .punct .assign) (some : ahead ≠ []) (rejected : Rejects ahead) :
    Rejects (token :: ahead) where
  start := by
    rw [parameters]
    split
    · simpa using some
    · split
      · exact rejected.rest
      · rfl
  rest := by
    by_cases isComma : token.kind = .punct .comma
    · rw [parameterRest_of_comma isComma, rejected.start]
    by_cases continues : continuesParameter token.kind = true
    · rw [parameterRest_of_continues continues, rejected.rest]
    · rw [parameterRest, if_neg isComma, if_neg continues, if_neg noOpening, if_neg noAssign]

theorem rejects_comma (isComma : token.kind = .punct .comma) (noStart : parameters ahead = false) :
    Rejects (token :: ahead) where
  start := parameters_of_unopened (by simp [isComma]) (by rw [isComma]; rfl)
  rest := by rw [parameterRest_of_comma isComma, noStart]

theorem rejects_run {run : List Token} (isRun : AngleRun.IsRun run)
    (noRest : parameterRest ahead = false) : Rejects (run ++ ahead) where
  start := by
    obtain ⟨opening, inner, rfl, opens, _⟩ := isRun.exists_cons
    exact parameters_of_unopened (by simp [opens]) (by rw [opens]; rfl)
  rest := by rw [parameterRest_of_run isRun, noRest]

theorem rejects_default {value : List Token} {comma : Token}
    (isAssign : token.kind = .punct .assign)
    (noComma : ∀ token ∈ value, token.kind ≠ .punct .comma) (isComma : comma.kind = .punct .comma)
    (noStart : parameters ahead = false) : Rejects (token :: (value ++ comma :: ahead)) where
  start := parameters_of_unopened (by simp [isAssign]) (by rw [isAssign]; rfl)
  rest := by rw [parameterRest_of_default isAssign noComma isComma, noStart]

def EndsInComma (tokens : List Token) : Prop :=
  ∃ last ∈ tokens.getLast?, last.kind = .punct .comma

theorem EndsInComma.cases {back : List Token} (ends : EndsInComma (front ++ back)) :
    EndsInComma front ∧ back = [] ∨ EndsInComma back := by
  cases back with
  | nil =>
    rw [List.append_nil] at ends
    exact .inl ⟨ends, rfl⟩
  | cons token others =>
    obtain ⟨last, isLast, isComma⟩ := ends
    rw [List.getLast?_append_cons] at isLast
    exact .inr ⟨last, isLast, isComma⟩

theorem not_endsInComma_of_run {run : List Token} (isRun : AngleRun.IsRun run) :
    ¬ EndsInComma run := by
  rintro ⟨last, isLast, isComma⟩
  have run : Pieces continuesParameter (run ++ []) := .run isRun .nil
  rw [List.append_nil] at run
  rcases run.last_cases isLast with continues | closes
  · rw [isComma] at continues
    cases continues
  · rw [isComma] at closes
    cases closes

/-- A list is rejected where no parameter goes on outside of angle runs and
default values, and where none starts behind a comma. -/
theorem rejects_append (outside : Outside front) (noStart : parameters tail = false)
    (noRest : parameterRest tail = false ∨ EndsInComma front) : Rejects (front ++ tail) := by
  induction outside with
  | nil =>
    obtain stops | ⟨_, absent, _⟩ := noRest
    · exact ⟨noStart, stops⟩
    · cases absent
  | @token token rest noOpening noAssign _ ih =>
    have goesOn (rejected : Rejects (rest ++ tail)) : Rejects (token :: (rest ++ tail)) :=
      rejects_cons noOpening noAssign (ne_nil_of_rejected rejected.rest) rejected
    rcases noRest with stops | ends
    · exact goesOn (ih (.inl stops))
    have fromToken : EndsInComma ([token] ++ rest) := ends
    rcases fromToken.cases with ⟨⟨_, isLast, isComma⟩, rfl⟩ | ends
    · obtain rfl := Option.some.inj isLast
      exact rejects_comma isComma noStart
    · exact goesOn (ih (.inr ends))
  | @run run rest isRun _ ih =>
    rw [List.append_assoc]
    rcases noRest with stops | ends
    · exact rejects_run isRun (ih (.inl stops)).rest
    rcases ends.cases with ⟨inRun, _⟩ | ends
    · exact absurd inRun (not_endsInComma_of_run isRun)
    · exact rejects_run isRun (ih (.inr ends)).rest
  | @value value rest assign comma isAssign noComma isComma _ ih =>
    have split : assign :: (value ++ comma :: rest) = (assign :: (value ++ [comma])) ++ rest := by
      simp
    have goesOn (stops : parameters (rest ++ tail) = false) :
        Rejects (assign :: (value ++ comma :: rest) ++ tail) := by
      have rejected := rejects_default isAssign noComma isComma stops
      simpa using rejected
    rcases noRest with stops | ends
    · exact goesOn (ih (.inl stops)).start
    rw [split] at ends
    rcases ends.cases with ⟨_, rfl⟩ | ends
    · exact goesOn noStart
    · exact goesOn (ih (.inr ends)).start

theorem parameters_of_starts (starts : StartsBehind front) (noStart : parameters tail = false) :
    parameters (front ++ tail) = false := by
  rcases List.eq_nil_or_concat front with rfl | ⟨inner, last, rfl⟩
  · exact noStart
  · have isLast : last ∈ (inner.concat last).getLast? := by simp
    exact (rejects_append starts.outside noStart (.inr ⟨last, isLast, starts.separated last isLast⟩)).start

theorem rejects_foreign (isForeign : token.kind.IsForeign) : Rejects (token :: ahead) := by
  obtain ⟨id, kind, text, span, position, nested⟩ := token
  have unopened : kind ≠ .punct .ellipsis ∧ opensParameter kind = false ∧
      kind ≠ .punct .comma ∧ continuesParameter kind = false ∧ kind ≠ .opening .angle ∧
      kind ≠ .punct .assign := by
    rcases isForeign with isConstant | rfl | rfl | rfl
    · cases kind <;> simp_all [TokenKind.isConstant, opensParameter, continuesParameter]
    all_goals simp [opensParameter, continuesParameter]
  obtain ⟨noEllipsis, closed, noComma, stops, noOpening, noAssign⟩ := unopened
  refine ⟨parameters_of_unopened noEllipsis closed, ?_⟩
  rw [parameterRest, if_neg noComma, stops, if_neg noOpening, if_neg noAssign]
  rfl

theorem rejects_unclosed (opens : token.kind = .opening .angle)
    (unclosed : ∀ run, AngleRun.IsRun run → ¬ run <+: token :: ahead) :
    Rejects (token :: ahead) where
  start := parameters_of_unopened (by simp [opens]) (by rw [opens]; rfl)
  rest := by
    have noEnd : AngleRun.length? 0 ahead = none := by
      rw [Option.eq_none_iff_forall_ne_some]
      intro length closed
      exact unclosed _ (AngleRun.isRun_of_length? opens closed)
        (List.cons_prefix_cons.2 ⟨rfl, List.take_prefix length ahead⟩)
    rw [parameterRest, if_neg (by simp [opens]), if_neg (by simp [opens, continuesParameter]),
      if_pos opens, noEnd]

theorem parameters_of_misplaced {tokens : List Token} (misplaced : Misplaced tokens) :
    parameters tokens = false := by
  cases misplaced with
  | @trailingComma front comma isComma =>
    rw [Bool.eq_false_iff]
    intro accepted
    exact (parameters_iff_parameterList.1 accepted).last_ne_comma (by simp) isComma
  | emptyParameter starts isComma =>
    exact parameters_of_starts starts
      (parameters_of_unopened (by simp [isComma]) (by rw [isComma]; rfl))
  | innerEllipsis starts isEllipsis =>
    refine parameters_of_starts starts ?_
    rw [parameters, if_pos isEllipsis, List.isEmpty_cons]
  | @foreign front rest token outside isForeign =>
    have rejected : Rejects (token :: rest) := rejects_foreign isForeign
    exact (rejects_append outside rejected.start (.inl rejected.rest)).start
  | unclosed outside opens unclosed =>
    have rejected := rejects_unclosed opens unclosed
    exact (rejects_append outside rejected.start (.inl rejected.rest)).start

theorem Misplaced.ne_nil {tokens : List Token} (misplaced : Misplaced tokens) : tokens ≠ [] := by
  cases misplaced <;> simp

/-! ## Groups -/

theorem looksLikeParameters_iff_of_nested {group first last : Token} {inner : List Token}
    (nested : group.nested = first :: (inner ++ [last])) :
    looksLikeParameters group = true ↔ inner = [] ∨ ParameterList inner := by
  rw [looksLikeParameters_of_nested nested, Bool.or_eq_true, List.isEmpty_iff,
    parameters_iff_parameterList]

/-- Whether a group looks like the parameters of a function can be checked by
places: no step goes wrong.  It does exactly if, without its first and its last
token, it is empty or a parameter list.  So no comma ends it, no parameter is
missing, an ellipsis that starts a parameter is the last token, and outside of
angle runs and default values no constant or operator stands and every angle
bracket is closed. -/
theorem looksLikeParameters_iff_parameterList (group : Token) :
    parametersByPlaces group = .ok (looksLikeParameters group) ∧
      (looksLikeParameters group = true ↔
        ∃ first inner last, group.nested = first :: (inner ++ [last]) ∧
          (inner = [] ∨ ParameterList inner)) ∧
      (∀ kind, opensParameter kind = true ↔
        kind = .identifier ∨ (∃ keyword, kind = .keyword keyword) ∨
          kind = .punct .doubleColon) ∧
      (∀ kind, continuesParameter kind = true ↔
        kind = .identifier ∨ (∃ keyword, kind = .keyword keyword) ∨ kind = .punct .star ∨
          kind = .punct .ampersand ∨ kind = .punct .doubleAmpersand ∨
          kind = .punct .doubleColon ∨ kind = .punct .ellipsis ∨ kind = .group .round ∨
          kind = .group .square ∨ kind = .group .angle) ∧
      ∀ first inner last, group.nested = first :: (inner ++ [last]) → Misplaced inner →
        looksLikeParameters group = false := by
  refine ⟨parametersByPlaces_eq group, ?_, fun _ => opensParameter_iff,
    fun _ => continuesParameter_iff, ?_⟩
  · constructor
    · intro accepted
      rcases nested_cases group with few | ⟨first, inner, last, nested⟩
      · rw [looksLikeParameters_of_few few] at accepted
        cases accepted
      · exact ⟨first, inner, last, nested, (looksLikeParameters_iff_of_nested nested).1 accepted⟩
    · rintro ⟨first, inner, last, nested, list⟩
      exact (looksLikeParameters_iff_of_nested nested).2 list
  · intro first inner last nested misplaced
    rw [looksLikeParameters_of_nested nested, parameters_of_misplaced misplaced, Bool.or_false,
      List.isEmpty_eq_false_iff]
    exact Misplaced.ne_nil misplaced

/-- In `(m<k, v> &a = b < 2, ...)` a bracket of the default value is not closed. -/
def defaultInner : List Token :=
  [Chain.sampleToken 1 .identifier "m" [], Chain.sampleToken 2 (.opening .angle) "<" [],
    Chain.sampleToken 3 .identifier "k" [], Chain.sampleComma 4,
    Chain.sampleToken 5 .identifier "v" [], Chain.sampleToken 6 (.closing .angle) ">" [],
    Chain.sampleToken 7 (.punct .ampersand) "&" [], Chain.sampleToken 8 .identifier "a" [],
    Chain.sampleToken 9 (.punct .assign) "=" [], Chain.sampleToken 10 .identifier "b" [],
    Chain.sampleToken 11 (.opening .angle) "<" [], Chain.sampleToken 12 .number "2" [],
    Chain.sampleComma 13, Chain.sampleToken 14 (.punct .ellipsis) "..." []]

def ellipsisInner : List Token :=
  [Chain.sampleToken 1 (.keyword .kwInt) "int" [], Chain.sampleComma 2,
    Chain.sampleToken 3 (.punct .ellipsis) "..." [], Chain.sampleComma 4,
    Chain.sampleToken 5 .identifier "a" []]

def roundGroup (inner : List Token) : Token :=
  Chain.sampleToken 20 (.group .round) "" (Chain.sampleToken 0 (.opening .round) "(" [] ::
    (inner ++ [Chain.sampleToken 19 (.closing .round) ")" []]))

theorem parameterList_defaultInner : ParameterList defaultInner := by
  have run : AngleRun.IsRun ((defaultInner.drop 1).take 5) :=
    AngleRun.isRun_cons_iff.2 ⟨rfl, rfl⟩
  have pieces : Pieces continuesParameter ((defaultInner.drop 1).take 7) :=
    .run run (.token rfl (.token rfl .nil))
  have plain : PlainParameter (defaultInner.take 8) := .start rfl pieces
  have noComma : ∀ token ∈ (defaultInner.drop 9).take 3, token.kind ≠ .punct .comma := by
    simp [defaultInner, Chain.sampleToken, Chain.sampleComma]
  exact .more (.withDefault plain rfl noComma) rfl (.ellipsis rfl)

theorem misplaced_ellipsisInner : Misplaced ellipsisInner := by
  have outside : Outside (ellipsisInner.take 2) :=
    .token (by simp [Chain.sampleToken]) (by simp [Chain.sampleToken])
      (.token (by simp [Chain.sampleToken, Chain.sampleComma])
        (by simp [Chain.sampleToken, Chain.sampleComma]) .nil)
  have starts : StartsBehind (ellipsisInner.take 2) :=
    ⟨outside, by simp [ellipsisInner, Chain.sampleToken, Chain.sampleComma]⟩
  exact .innerEllipsis starts rfl

theorem looksLikeParameters_iff_parameterList_twoLists :
    ParameterList defaultInner ∧ parametersByPlaces (roundGroup defaultInner) = .ok true ∧
      Misplaced ellipsisInner ∧ parametersByPlaces (roundGroup ellipsisInner) = .ok false := by
  obtain ⟨read, accepted, _⟩ := looksLikeParameters_iff_parameterList (roundGroup defaultInner)
  obtain ⟨readOther, _, _, _, rejected⟩ :=
    looksLikeParameters_iff_parameterList (roundGroup ellipsisInner)
  refine ⟨parameterList_defaultInner, ?_, misplaced_ellipsisInner, ?_⟩
  · rw [read, accepted.2 ⟨_, _, _, rfl, .inr parameterList_defaultInner⟩]
  · rw [readOther, rejected _ _ _ rfl misplaced_ellipsisInner]

end Signature

end DeclScan
