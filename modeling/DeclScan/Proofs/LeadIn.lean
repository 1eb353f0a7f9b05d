import DeclScan.Declarator.LeadIn
import DeclScan.Proofs.AngleRun

/-!
# What a lead-in consists of

Tokens are split from left to right into pieces: angle runs with any content,
and single tokens that are no `<`.  The main statement is
`leadIn?_eq_some_iff`: the lead-in of a declarator is exactly what splits into
angle runs and passable tokens before the first notable token.
-/

set_option autoImplicit false

namespace DeclScan

def TokenKind.isPassable (kind : TokenKind) : Bool :=
  !kind.isNotable && kind ≠ .opening .angle && !kind.isDisqualifying

/-- Besides the words and the marks of a type, a lead-in passes numbers, pairs
of colons, closing angle brackets, and brackets that are never closed. -/
theorem TokenKind.isPassable_iff {kind : TokenKind} :
    kind.isPassable = true ↔
      kind = .identifier ∨ (∃ keyword, kind = .keyword keyword) ∨ kind = .number ∨
        kind = .punct .star ∨ kind = .punct .ampersand ∨ kind = .punct .doubleColon ∨
        kind = .closing .angle ∨ kind = .opening .round ∨ kind = .opening .square := by
  cases kind with
  | opening bracket | closing bracket | group bracket =>
    cases bracket <;> simp [isPassable, isNotable, isDisqualifying, isUnmatchedCloser]
  | punct punctuator =>
    cases punctuator <;> simp [isPassable, isNotable, isDisqualifying, isUnmatchedCloser]
  | _ => simp [isPassable, isNotable, isDisqualifying, isUnmatchedCloser]

/-- Tokens that split into angle runs and single tokens of the kinds given. -/
inductive Pieces (single : TokenKind → Bool) : List Token → Prop where
  | nil : Pieces single []
  | token {token : Token} {rest : List Token} :
      single token.kind = true → Pieces single rest → Pieces single (token :: rest)
  | run {run rest : List Token} :
      AngleRun.IsRun run → Pieces single rest → Pieces single (run ++ rest)

namespace Pieces

variable {single : TokenKind → Bool} {front back : List Token}

theorem append (first : Pieces single front) (second : Pieces single back) :
    Pieces single (front ++ back) := by
  induction first with
  | nil => exact second
  | token isSingle _ ih => exact .token isSingle ih
  | run isRun _ ih =>
    rw [List.append_assoc]
    exact .run isRun ih

theorem of_forall (all : ∀ token ∈ front, single token.kind = true) : Pieces single front := by
  induction front with
  | nil => exact .nil
  | cons token rest ih =>
    refine .token (all token (by simp)) (ih fun other member => ?_)
    exact all other (by simp [member])

theorem mono {wider : TokenKind → Bool}
    (includes : ∀ kind, single kind = true → wider kind = true) (pieces : Pieces single front) :
    Pieces wider front := by
  induction pieces with
  | nil => exact .nil
  | token isSingle _ ih => exact .token (includes _ isSingle) ih
  | run isRun _ ih => exact .run isRun ih

theorem last_cases (pieces : Pieces single front) {last : Token}
    (isLast : last ∈ front.getLast?) :
    single last.kind = true ∨ last.kind = .closing .angle := by
  induction pieces with
  | nil => cases isLast
  | @token token rest isSingle _ ih =>
    cases rest with
    | nil =>
      obtain rfl : token = last := by simpa using isLast
      exact .inl isSingle
    | cons next others => exact ih isLast
  | @run run rest isRun _ ih =>
    cases rest with
    | cons next others =>
      apply ih
      simpa using isLast
    | nil =>
      rw [List.append_nil] at isLast
      cases run with
      | nil => cases isLast
      | cons opener inner =>
        obtain ⟨_, found⟩ := AngleRun.isRun_cons_iff.1 isRun
        obtain ⟨closer, isCloser, closes⟩ := AngleRun.closer_of_length? found
        have same : last = closer := by
          cases inner with
          | nil => cases isCloser
          | cons next others => exact Option.some.inj (isLast.symm.trans isCloser)
        exact .inr (same ▸ closes)

end Pieces

theorem pieces_of_leadIn? {passed ahead : List Token} {lead : LeadIn}
    (found : leadIn? passed ahead = some lead) :
    ∃ front, Pieces TokenKind.isPassable front ∧ lead.notable.kind.isNotable = true ∧
      ahead = front ++ lead.notable :: lead.after ∧ lead.passed = front.reverse ++ passed := by
  fun_induction leadIn? passed ahead with
  | case1 => cases found
  | case2 passed token rest notable =>
    obtain rfl := Option.some.inj found
    exact ⟨[], .nil, notable, rfl, rfl⟩
  | case3 passed token rest _ opener length ended ih =>
    obtain ⟨front, pieces, notable, whole, exact⟩ := ih found
    have isRun := AngleRun.isRun_of_length? opener ended
    refine ⟨(token :: rest.take length) ++ front, .run isRun pieces, notable, ?_, ?_⟩
    · rw [List.append_assoc, ← whole]
      simp
    · rw [exact]
      simp
  | case4 => cases found
  | case5 => cases found
  | case6 passed token rest noNotable noOpener noDisqualifying ih =>
    obtain ⟨front, pieces, notable, whole, exact⟩ := ih found
    have passable : token.kind.isPassable = true := by
      simp [TokenKind.isPassable, noNotable, noOpener, noDisqualifying]
    refine ⟨token :: front, .token passable pieces, notable, ?_, ?_⟩
    · rw [whole]
      rfl
    · rw [exact]
      simp

theorem leadIn?_of_pieces {front after : List Token} {notable : Token} (passed : List Token)
    (pieces : Pieces TokenKind.isPassable front) (isNotable : notable.kind.isNotable = true) :
    leadIn? passed (front ++ notable :: after) =
      some ⟨front.reverse ++ passed, notable, after⟩ := by
  induction pieces generalizing passed with
  | nil =>
    rw [List.nil_append, leadIn?, if_pos isNotable]
    rfl
  | @token token rest isSingle _ ih =>
    simp only [TokenKind.isPassable, Bool.and_eq_true, Bool.not_eq_true', decide_eq_true_eq]
      at isSingle
    obtain ⟨⟨noNotable, noOpener⟩, noDisqualifying⟩ := isSingle
    rw [List.cons_append, leadIn?, if_neg (by simp [noNotable]), if_neg noOpener,
      if_neg (by simp [noDisqualifying]), ih]
    simp
  | @run run rest isRun _ ih =>
    obtain ⟨opener, inner, rfl, opens, ended⟩ := isRun.exists_cons
    have noNotable : ¬ opener.kind.isNotable = true := by simp [opens, TokenKind.isNotable]
    rw [List.append_assoc, List.cons_append, leadIn?, if_neg noNotable, if_pos opens]
    simp only [ended, List.take_left, List.drop_left]
    rw [ih]
    simp

theorem leadIn?_eq_some_iff {passed ahead : List Token} {lead : LeadIn} :
    leadIn? passed ahead = some lead ↔
      ∃ front, Pieces TokenKind.isPassable front ∧ lead.notable.kind.isNotable = true ∧
        ahead = front ++ lead.notable :: lead.after ∧ lead.passed = front.reverse ++ passed := by
  constructor
  · exact pieces_of_leadIn?
  · rintro ⟨front, pieces, isNotable, rfl, exact⟩
    rw [leadIn?_of_pieces passed pieces isNotable, ← exact]

end DeclScan
