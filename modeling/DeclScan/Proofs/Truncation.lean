import Mathlib
import DeclScan.Proofs.Acceptance

/-!
# Where constructor arguments are not allowed

Whether a file is in C++, and which kind of scope a statement stands in, only
decides if a variable may be declared by constructor arguments.  Where it may
not, a scan reads the same declarators up to the first one of that form, and
stops there: `Chain.scan_truncated`.
-/

set_option autoImplicit false

namespace DeclScan

def TakesArguments (holder : Token) (following : List Token) : Prop :=
  holder.kind = .identifier ∧
    ∃ group after, following = group :: after ∧ group.kind = .group .round ∧
      ∀ nested, ¬ PointerShape nested group after

section Pair

variable {file file' : SourceFile} {entry entry' : ScopeKind}

/-- Lead-ins that end where arguments are not allowed end likewise where they are. -/
theorem Ending.of_not_allowed (forbids : allowsArguments file' entry' = false)
    {held after : List Token} {notable name : Token}
    (ending : Ending file' entry' held notable after name) :
    Ending file entry held notable after name := by
  cases ending with
  | plain isName isEnd => exact .plain isName isEnd
  | arguments _ _ _ isCpp inside =>
    have allowed := allowsArguments_iff.2 ⟨isCpp, inside⟩
    rw [forbids] at allowed
    cases allowed
  | pointer shape => exact .pointer shape

/-- The converse holds for lead-ins that do not end before arguments. -/
theorem Ending.of_not_takesArguments {held after ahead : List Token} {holder notable name : Token}
    (ending : Ending file entry held notable after name)
    (isHolder : holder :: ahead = held ++ notable :: after)
    (noArguments : ¬ TakesArguments holder ahead) :
    Ending file' entry' held notable after name := by
  cases ending with
  | plain isName isEnd => exact .plain isName isEnd
  | arguments isName isGroup noPointer =>
    obtain ⟨rfl, rfl⟩ := List.cons.inj isHolder
    exact absurd ⟨isName, notable, after, rfl, isGroup, noPointer⟩ noArguments
  | pointer shape => exact .pointer shape

theorem Ending.not_takesArguments (forbids : allowsArguments file' entry' = false)
    {held after ahead : List Token} {holder notable name : Token}
    (ending : Ending file' entry' held notable after name)
    (isHolder : holder :: ahead = held ++ notable :: after) :
    ¬ TakesArguments holder ahead := by
  rintro ⟨isName, group, others, rfl, isGroup, _⟩
  cases ending with
  | plain _ isEnd =>
    obtain ⟨rfl, isAhead⟩ := List.cons.inj isHolder
    obtain ⟨rfl, rfl⟩ := List.cons.inj isAhead
    rw [isGroup] at isEnd
    simp [plainEnds] at isEnd
  | arguments _ _ _ isCpp inside =>
    have allowed := allowsArguments_iff.2 ⟨isCpp, inside⟩
    rw [forbids] at allowed
    cases allowed
  | pointer shape =>
    obtain ⟨rfl, _⟩ := List.cons.inj isHolder
    rw [shape.isGroup] at isName
    cases isName

namespace Declarator

variable {passed ahead : List Token} {declarator : Declarator}

theorem find?_iff_of_not_allowed (file : SourceFile) (entry : ScopeKind)
    (forbids : allowsArguments file' entry' = false) (start : StartsDeclarator passed) :
    find? file' entry' passed ahead = some declarator ↔
      find? file entry passed ahead = some declarator ∧
        ¬ TakesArguments declarator.site.holder declarator.ahead := by
  rw [find?_iff_ending start, find?_iff_ending start]
  constructor
  · rintro ⟨lead, held, notable, after, whole, pieces, ending, isHolder, isBefore, qualified⟩
    exact ⟨⟨lead, held, notable, after, whole, pieces, ending.of_not_allowed forbids, isHolder,
      isBefore, qualified⟩, ending.not_takesArguments forbids isHolder⟩
  · rintro ⟨⟨lead, held, notable, after, whole, pieces, ending, isHolder, isBefore, qualified⟩,
      noArguments⟩
    exact ⟨lead, held, notable, after, whole, pieces,
      ending.of_not_takesArguments isHolder noArguments, isHolder, isBefore, qualified⟩

end Declarator

/-! ## Declarations -/

/-- The first stretches hold no name that takes arguments.  The others, if there
are any, start with one that does. -/
structure StopsBefore (common others : List Stretch) (rest : List Token) : Prop where
  passes : ∀ front stretch back, common = front ++ stretch :: back →
    ¬ TakesArguments stretch.holder ((back ++ others).flatMap Stretch.tokens ++ rest)
  stops : ∀ stretch back, others = stretch :: back →
    TakesArguments stretch.holder (back.flatMap Stretch.tokens ++ rest)

theorem stopsBefore_nil (rest : List Token) : StopsBefore [] [] rest where
  passes := by simp
  stops := nofun

theorem StopsBefore.cons {stretch : Stretch} {common others : List Stretch} {rest : List Token}
    (noArguments : ¬ TakesArguments stretch.holder
      ((common ++ others).flatMap Stretch.tokens ++ rest))
    (stopsBefore : StopsBefore common others rest) :
    StopsBefore (stretch :: common) others rest where
  passes := by
    intro front next back split
    cases front with
    | nil =>
      obtain ⟨rfl, rfl⟩ := List.cons.inj split
      exact noArguments
    | cons first front =>
      obtain ⟨_, rfl⟩ := List.cons.inj split
      exact stopsBefore.passes front next back rfl
  stops := stopsBefore.stops

/-- Two readings of the same tokens, of which the narrow one stops before the
stretches that take arguments, and agrees with the wide one up to there.  The
old tokens, the nearest one first, precede both. -/
structure Cut (old tokens : List Token) (wide narrow : Declaration)
    (common others : List Stretch) (rest : List Token) : Prop where
  tokens_eq : tokens = (common ++ others).flatMap Stretch.tokens ++ rest
  wide_live : wide.live = old.reverse ++ ((common ++ others).flatMap Stretch.kept ++ rest)
  wide_declared : List.Forall₂ Stretch.Declares (common ++ others) wide.declared
  narrow_live : narrow.live =
    old.reverse ++ (common.flatMap Stretch.kept ++ (others.flatMap Stretch.tokens ++ rest))
  narrow_declared : narrow.declared = wide.declared.take common.length
  stopsBefore : StopsBefore common others rest

namespace Cut

variable {old tokens rest : List Token} {wide narrow : Declaration}
  {common others : List Stretch} {stretch : Stretch} {first : Variable}

theorem nothing (old tokens : List Token) :
    Cut old tokens ⟨[], old.reverse ++ tokens⟩ ⟨[], old.reverse ++ tokens⟩ [] [] tokens where
  tokens_eq := rfl
  wide_live := rfl
  wide_declared := .nil
  narrow_live := rfl
  narrow_declared := rfl
  stopsBefore := stopsBefore_nil tokens

theorem both (cut : Cut (stretch.kept.reverse ++ old) tokens wide narrow common others rest)
    (declares : stretch.Declares first) (noArguments : ¬ TakesArguments stretch.holder tokens) :
    Cut old (stretch.tokens ++ tokens) ⟨first :: wide.declared, wide.live⟩
      ⟨first :: narrow.declared, narrow.live⟩ (stretch :: common) others rest where
  tokens_eq := by simp [cut.tokens_eq]
  wide_live := by simp [cut.wide_live]
  wide_declared := .cons declares cut.wide_declared
  narrow_live := by simp [cut.narrow_live]
  narrow_declared := by simp [cut.narrow_declared]
  stopsBefore := cut.stopsBefore.cons (cut.tokens_eq ▸ noArguments)

theorem wideOnly (cut : Cut (stretch.kept.reverse ++ old) tokens wide narrow common others rest)
    (declares : stretch.Declares first) (takes : TakesArguments stretch.holder tokens) :
    Cut old (stretch.tokens ++ tokens) ⟨first :: wide.declared, wide.live⟩
      ⟨[], old.reverse ++ (stretch.tokens ++ tokens)⟩ [] (stretch :: (common ++ others)) rest where
  tokens_eq := by simp [cut.tokens_eq]
  wide_live := by simp [cut.wide_live]
  wide_declared := .cons declares cut.wide_declared
  narrow_live := by simp [cut.tokens_eq]
  narrow_declared := rfl
  stopsBefore := by
    refine ⟨by simp, fun next back split => ?_⟩
    obtain ⟨rfl, rfl⟩ := List.cons.inj split
    exact cut.tokens_eq ▸ takes

end Cut

namespace Declaration

variable {passed ahead : List Token}

theorem readFrom_of_takesArguments (file : SourceFile) (entry : ScopeKind)
    (forbids : allowsArguments file' entry' = false) (known : Option Token)
    (start : StartsDeclarator passed)
    (takes : ∀ declarator, Declarator.find? file entry passed ahead = some declarator →
      TakesArguments declarator.site.holder declarator.ahead) :
    readFrom file' entry' known passed ahead = ⟨[], passed.reverse ++ ahead⟩ := by
  have absent : Declarator.find? file' entry' passed ahead = none := by
    rw [Option.eq_none_iff_forall_ne_some]
    intro declarator found
    obtain ⟨wider, noArguments⟩ :=
      (Declarator.find?_iff_of_not_allowed file entry forbids start).1 found
    exact noArguments (takes declarator wider)
  rw [readFrom_eq, absent]

theorem exists_cut_of_find? {known : Option Token} {pending old rest : List Token}
    {declarator : Declarator} {stretch : Stretch} {first : Variable} {wide narrow : Declaration}
    {common others : List Stretch} (forbids : allowsArguments file' entry' = false)
    (start : StartsDeclarator passed) (split : passed = pending.reverse ++ old)
    (found : Declarator.find? file entry passed ahead = some declarator)
    (tokens : pending ++ ahead = stretch.tokens ++ declarator.ahead)
    (holder : stretch.holder = declarator.site.holder) (declares : stretch.Declares first)
    (cut : Cut (stretch.kept.reverse ++ old) declarator.ahead wide narrow common others rest)
    (reads : Declarator.find? file' entry' passed ahead = some declarator →
      readFrom file' entry' known passed ahead = ⟨first :: narrow.declared, narrow.live⟩) :
    ∃ common others rest,
      Cut old (pending ++ ahead) ⟨first :: wide.declared, wide.live⟩
        (readFrom file' entry' known passed ahead) common others rest := by
  by_cases takes : TakesArguments declarator.site.holder declarator.ahead
  · have stops : readFrom file' entry' known passed ahead =
        ⟨[], old.reverse ++ (pending ++ ahead)⟩ := by
      rw [readFrom_of_takesArguments file entry forbids known start, split]
      · simp
      · intro other foundOther
        obtain rfl := Option.some.inj (found.symm.trans foundOther)
        exact takes
    rw [stops, tokens]
    exact ⟨_, _, _, cut.wideOnly declares (holder ▸ takes)⟩
  · rw [reads ((Declarator.find?_iff_of_not_allowed file entry forbids start).2 ⟨found, takes⟩),
      tokens]
    exact ⟨_, _, _, cut.both declares (holder ▸ takes)⟩

/-- Where arguments are not allowed, reading on stops before the first name that
takes them.  What it declares before is the same, and so is what it keeps. -/
theorem readFrom_truncated (forbids : allowsArguments file' entry' = false)
    (known : Option Token) {pending old : List Token} (start : StartsDeclarator passed)
    (split : passed = pending.reverse ++ old) (reaches : old = [] ∨ pending ≠ []) :
    ∃ common others rest,
      Cut old (pending ++ ahead) (readFrom file entry known passed ahead)
        (readFrom file' entry' known passed ahead) common others rest := by
  have nothing {passed ahead pending old : List Token} (split : passed = pending.reverse ++ old) :
      Cut old (pending ++ ahead) ⟨[], passed.reverse ++ ahead⟩ ⟨[], passed.reverse ++ ahead⟩ [] []
        (pending ++ ahead) := by
    have same : passed.reverse ++ ahead = old.reverse ++ (pending ++ ahead) := by simp [split]
    rw [same]
    exact .nothing old (pending ++ ahead)
  fun_induction readFrom file entry known passed ahead generalizing pending old with
  | case1 known passed ahead absent =>
    rw [readFrom_of_takesArguments file entry forbids known start (by simp [absent])]
    exact ⟨[], [], _, nothing split⟩
  | case2 known passed ahead declarator found noType =>
    have same : readFrom file' entry' known passed ahead = ⟨[], passed.reverse ++ ahead⟩ := by
      rw [readFrom_eq]
      cases found' : Declarator.find? file' entry' passed ahead with
      | none => rfl
      | some declarator' =>
        have wider := ((Declarator.find?_iff_of_not_allowed file entry forbids start).1 found').1
        obtain rfl := Option.some.inj (found.symm.trans wider)
        simp only [noType]
    rw [same]
    exact ⟨[], [], _, nothing split⟩
  | case3 known passed ahead declarator found typeEnd ended first =>
    rename_i last
    obtain ⟨stretch, tokens, settled, holder, names⟩ :=
      Declarator.exists_stretch_of_find? start split reaches found
    have declares : stretch.Declares first := names
    have cut : Cut (stretch.kept.reverse ++ old) declarator.ahead ⟨[], declarator.live⟩
        ⟨[], declarator.live⟩ [] [] declarator.ahead := by
      rw [Declarator.live, settled]
      exact .nothing _ _
    refine exists_cut_of_find? forbids start split found tokens holder declares cut ?_
    intro found'
    rw [readFrom_eq]
    simp only [found', ended, last]
    rfl
  | case4 known passed ahead declarator found typeEnd ended first nearer others next =>
    rename_i ih
    obtain ⟨stretch, tokens, settled, holder, names⟩ :=
      Declarator.exists_stretch_of_find? start split reaches found
    have declares : stretch.Declares first := names
    obtain ⟨nextPending, some, nextSplit, isAhead⟩ := nextDeclarator?_pending next
    obtain ⟨common, further, rest, cut⟩ := ih (startsDeclarator_next next) nextSplit (.inr some)
    rw [← isAhead, settled] at cut
    refine exists_cut_of_find? forbids start split found tokens holder declares cut ?_
    intro found'
    rw [readFrom_eq]
    simp only [found', ended, next]
    rfl

theorem read_truncated (file : SourceFile) (entry : ScopeKind)
    (forbids : allowsArguments file' entry' = false) (live : List Token) :
    ∃ common others rest,
      Cut [] live (read file entry live) (read file' entry' live) common others rest := by
  cases live with
  | nil => exact ⟨[], [], [], .nothing [] []⟩
  | cons first others =>
    by_cases isWord : first.kind.isWord = true
    · simp only [read, if_pos isWord]
      have nothingPassed : ([] : List Token) = [].reverse ++ [] := rfl
      exact readFrom_truncated forbids none startsDeclarator_nil nothingPassed (.inl rfl)
    · simp only [read, if_neg isWord]
      exact ⟨[], [], _, .nothing [] _⟩

end Declaration

end Pair

/-! ## Scans -/

namespace Chain

/-- Where constructor arguments are not allowed, a scan offers the first ones of
the names that it offers elsewhere, up to the first name that takes arguments,
and all of them if none does.  The qualifiers of these names are the same, and
no others are taken out of the live tokens. -/
theorem scan_truncated {σ τ : Type} (sink : Sink σ) (sink' : Sink τ) (file file' : SourceFile)
    (storage storage' : Storage) (chain : Chain) (scopes scopes' : ScopeStack) (state : σ)
    (state' : τ)
    (forbids : file'.language = .c ∨
      scopes'.currentKind ≠ .inNamespace ∧ scopes'.currentKind ≠ .inFunction) :
    let wide := chain.scan sink file storage scopes state
    let narrow := chain.scan sink' file' storage' scopes' state'
    let offers := chain.offers sink file storage scopes state
    let offers' := chain.offers sink' file' storage' scopes' state'
    ∃ common others rest,
      chain.live = (common ++ others).flatMap Stretch.tokens ++ rest ∧
      wide.chain.live = (common ++ others).flatMap Stretch.kept ++ rest ∧
      narrow.chain.live =
        common.flatMap Stretch.kept ++ (others.flatMap Stretch.tokens ++ rest) ∧
      wide.chain.live.Sublist narrow.chain.live ∧
      List.Forall₂ (Stretch.OfferedIn scopes) (common ++ others) offers ∧
      List.Forall₂ (Stretch.OfferedIn scopes') common offers' ∧
      offers'.map Offer.anchor = (offers.map Offer.anchor).take common.length ∧
      StopsBefore common others rest := by
  have forbidden : allowsArguments file' scopes'.currentKind = false := by
    rw [← Bool.not_eq_true, allowsArguments_iff]
    rintro ⟨isCpp, inside⟩
    rcases forbids with isC | ⟨noNamespace, noFunction⟩
    · rw [isCpp] at isC
      cases isC
    · exact inside.elim noNamespace noFunction
  obtain ⟨common, others, rest, cut⟩ :=
    Declaration.read_truncated file scopes.currentKind forbidden chain.live
  have narrowDeclared : List.Forall₂ Stretch.Declares common
      (Declaration.read file' scopes'.currentKind chain.live).declared := by
    have front := List.forall₂_take common.length cut.wide_declared
    rw [List.take_left, ← cut.narrow_declared] at front
    exact front
  refine ⟨common, others, rest, cut.tokens_eq, cut.wide_live, cut.narrow_live, ?_, ?_, ?_, ?_,
    cut.stopsBefore⟩
  · have fewer := (Stretch.flatMap_kept_sublist others).append_right rest
    rw [scan, scan, cut.wide_live, cut.narrow_live, List.flatMap_append, List.append_assoc]
    exact fewer.append_left _
  · rw [offers_eq, List.forall₂_map_right_iff]
    exact cut.wide_declared.imp fun _ _ declares => declares.offeredIn _ scopes
  · rw [offers_eq, List.forall₂_map_right_iff]
    exact narrowDeclared.imp fun _ _ declares => declares.offeredIn _ scopes'
  · rw [offers_eq, offers_eq, cut.narrow_declared, List.map_map, List.map_map, List.map_take]
    rfl

/-- The chain of `int a, b(1), N::c;`. -/
def mixedChain : Chain :=
  .ofLexemes .cpp ⟨[]⟩ [⟨.word, "int", .ofLength 0 3⟩, ⟨.word, "a", .ofLength 4 1⟩,
    ⟨.punct .comma, ",", .ofLength 5 1⟩, ⟨.word, "b", .ofLength 7 1⟩,
    ⟨.opening .round, "(", .ofLength 8 1⟩, ⟨.number, "1", .ofLength 9 1⟩,
    ⟨.closing .round, ")", .ofLength 10 1⟩, ⟨.punct .comma, ",", .ofLength 11 1⟩,
    ⟨.word, "N", .ofLength 13 1⟩, ⟨.punct .doubleColon, "::", .ofLength 14 2⟩,
    ⟨.word, "c", .ofLength 16 1⟩, ⟨.punct .semicolon, ";", .ofLength 17 1⟩]

theorem scan_truncated_mixedChain :
    (⟨.c, false⟩ : SourceFile).language = .c ∧ ∃ common others rest,
      common.length = 1 ∧ others.length = 2 ∧
      mixedChain.live = (common ++ others).flatMap Stretch.tokens ++ rest ∧
      (mixedChain.scan Collector.sink ⟨.c, false⟩ ⟨false, false⟩ .empty
          (.empty TagKind.all)).chain.live =
        common.flatMap Stretch.kept ++ (others.flatMap Stretch.tokens ++ rest) ∧
      StopsBefore common others rest := by
  obtain ⟨common, others, rest, tokens, _, live, _, offered, offered', _, stopsBefore⟩ :=
    scan_truncated Collector.sink Collector.sink ⟨.cpp, false⟩ ⟨.c, false⟩ ⟨false, false⟩
      ⟨false, false⟩ mixedChain .empty .empty (.empty TagKind.all) (.empty TagKind.all)
      (.inl rfl)
  have all := offered.length_eq
  have first := offered'.length_eq
  have three : (mixedChain.offers Collector.sink ⟨.cpp, false⟩ ⟨false, false⟩ .empty
      (.empty TagKind.all)).length = 3 := by decide +kernel
  have one : (mixedChain.offers Collector.sink ⟨.c, false⟩ ⟨false, false⟩ .empty
      (.empty TagKind.all)).length = 1 := by decide +kernel
  rw [three, List.length_append] at all
  rw [one] at first
  exact ⟨rfl, common, others, rest, first, by omega, tokens, live, stopsBefore⟩

end Chain

end DeclScan
