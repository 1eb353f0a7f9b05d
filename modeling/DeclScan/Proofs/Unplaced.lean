import Mathlib
import DeclScan.Chain.Folding

/-!
# Tokens without their places

Folding does not look at spans and positions.  Without them, the chain of some
lexemes depends only on the kinds and the texts of these lexemes:
`Chain.unplaced_ofLexemes`.
-/

set_option autoImplicit false

namespace DeclScan

namespace Token

mutual

/-- The token, and all that is nested in it, moved to the start of the text. -/
def unplaced : Token → Token
  | ⟨id, kind, text, _, _, nested⟩ =>
    ⟨id, kind, text, .ofLength 0 0, ⟨0, 0⟩, unplacedAll nested⟩

def unplacedAll : List Token → List Token
  | [] => []
  | token :: rest => token.unplaced :: unplacedAll rest

end

theorem unplacedAll_eq (tokens : List Token) : unplacedAll tokens = tokens.map unplaced := by
  induction tokens with
  | nil => rfl
  | cons token rest ih => rw [unplacedAll, ih, List.map_cons]

theorem unplaced_eq (token : Token) :
    token.unplaced =
      ⟨token.id, token.kind, token.text, .ofLength 0 0, ⟨0, 0⟩, token.nested.map unplaced⟩ := by
  rw [← unplacedAll_eq]
  cases token
  rfl

@[simp] theorem id_unplaced (token : Token) : token.unplaced.id = token.id := by
  rw [unplaced_eq]

@[simp] theorem kind_unplaced (token : Token) : token.unplaced.kind = token.kind := by
  rw [unplaced_eq]

@[simp] theorem text_unplaced (token : Token) : token.unplaced.text = token.text := by
  rw [unplaced_eq]

@[simp] theorem nested_unplaced (token : Token) :
    token.unplaced.nested = token.nested.map unplaced := by
  rw [unplaced_eq]

@[simp] theorem join_unplaced (tokens : List Token) : join (tokens.map unplaced) = join tokens := by
  simp [join, Function.comp_def]

end Token

namespace Chain

def unplaced (chain : Chain) : Chain :=
  ⟨chain.stored.map Token.unplaced, chain.live.map Token.unplaced⟩

theorem live_of_unplaced_eq {chain chain' : Chain} (same : chain.unplaced = chain'.unplaced) :
    chain.live.map Token.unplaced = chain'.live.map Token.unplaced :=
  congrArg Chain.live same

theorem unplaced_store (chain : Chain) (kind : TokenKind) (text : String) (span : Span)
    (position : Position) (nested : List Token) :
    chain.unplaced.store kind text (.ofLength 0 0) ⟨0, 0⟩ (nested.map Token.unplaced) =
      (chain.store kind text span position nested).map Token.unplaced unplaced := by
  simp [store, unplaced, Token.unplaced_eq]

theorem unplaced_storeGroup (chain : Chain) (bracket : Bracket) (first : Token)
    (rest : List Token) :
    chain.unplaced.storeGroup bracket first.unplaced (rest.map Token.unplaced) =
      (chain.storeGroup bracket first rest).map Token.unplaced unplaced := by
  have last : (rest.map Token.unplaced).getLastD first.unplaced =
      (rest.getLastD first).unplaced := by
    rw [List.getLastD_map]
  have covered : first.unplaced.span.cover (rest.getLastD first).unplaced.span =
      .ofLength 0 0 := by
    rw [Token.unplaced_eq, Token.unplaced_eq]
    rfl
  have position : first.unplaced.position = ⟨0, 0⟩ := by rw [Token.unplaced_eq]
  rw [storeGroup, storeGroup, ← unplaced_store, last, covered, position, ← List.map_cons,
    Token.join_unplaced]

end Chain

def Lexeme.unplaced (lexeme : Lexeme) : Lexeme := { lexeme with span := .ofLength 0 0 }

def OpenRegion.unplaced (region : OpenRegion) : OpenRegion :=
  ⟨region.bracket, region.opener.unplaced, region.contents.map Token.unplaced⟩

namespace Folding

def unplaced (folding : Folding) : Folding :=
  ⟨folding.chain.unplaced, folding.outside.map Token.unplaced,
    folding.regions.map OpenRegion.unplaced⟩

theorem unplaced_add (folding : Folding) (token : Token) :
    folding.unplaced.add token.unplaced = (folding.add token).unplaced := by
  unfold add
  cases isOpen : folding.regions with
  | nil => simp [unplaced, isOpen]
  | cons region regions => simp [unplaced, isOpen, OpenRegion.unplaced]

theorem opens_unplaced (folding : Folding) (bracket : Bracket) :
    folding.unplaced.opens bracket = folding.opens bracket := by
  cases bracket <;> simp [opens, unplaced]

theorem unplaced_read (folding : Folding) (token : Token) :
    folding.unplaced.read token.unplaced = (folding.read token).unplaced := by
  unfold read
  rw [Token.kind_unplaced]
  split
  · rename_i bracket _
    rw [opens_unplaced]
    split
    · simp [unplaced, OpenRegion.unplaced]
    · exact unplaced_add folding token
  · rename_i bracket _
    cases isOpen : folding.regions with
    | nil => simpa [unplaced, isOpen] using unplaced_add folding token
    | cons region regions =>
      have isOpenUnplaced : folding.unplaced.regions =
          region.unplaced :: regions.map OpenRegion.unplaced := by
        simp [unplaced, isOpen]
      rw [isOpenUnplaced]
      by_cases closes : region.bracket = bracket
      · -- the group is made of the same tokens, and stored, without their places
        have contents : (region.unplaced.contents.push token.unplaced).toList =
            (region.contents.push token).toList.map Token.unplaced := by
          simp [OpenRegion.unplaced]
        have grouped := Chain.unplaced_storeGroup folding.chain bracket region.opener
          (region.contents.push token).toList
        have closesUnplaced : region.unplaced.bracket = bracket := closes
        have opener : region.unplaced.opener = region.opener.unplaced := rfl
        have chain : folding.unplaced.chain = folding.chain.unplaced := rfl
        simp only [closes, closesUnplaced, if_true, contents, opener, chain, grouped]
        rw [← unplaced_add]
        rfl
      · have stays : region.unplaced.bracket ≠ bracket := closes
        simp only [closes, stays, if_false]
        exact unplaced_add folding token
  · exact unplaced_add folding token

theorem unplaced_readLexeme (language : Language) (lines : LineIndex) (folding : Folding)
    (lexeme : Lexeme) :
    folding.unplaced.readLexeme language ⟨[]⟩ lexeme.unplaced =
      (folding.readLexeme language lines lexeme).unplaced := by
  have stored := Chain.unplaced_store folding.chain (.ofLexeme language lexeme) lexeme.text
    lexeme.span (lines.position lexeme.span.start) []
  have sameKind : TokenKind.ofLexeme language lexeme.unplaced = .ofLexeme language lexeme := rfl
  have sameText : lexeme.unplaced.text = lexeme.text := rfl
  have start : (⟨[]⟩ : LineIndex).position (Span.ofLength 0 0).start = ⟨0, 0⟩ := rfl
  have noSpan : lexeme.unplaced.span = .ofLength 0 0 := rfl
  have chain : folding.unplaced.chain = folding.chain.unplaced := rfl
  rw [List.map_nil] at stored
  simp only [readLexeme, sameKind, sameText, start, noSpan, chain, stored]
  rw [← unplaced_read]
  rfl

theorem unplaced_foldl (language : Language) (lines : LineIndex) (folding : Folding)
    (lexemes : List Lexeme) :
    (lexemes.map Lexeme.unplaced).foldl (readLexeme language ⟨[]⟩) folding.unplaced =
      (lexemes.foldl (readLexeme language lines) folding).unplaced := by
  induction lexemes generalizing folding with
  | nil => rfl
  | cons lexeme rest ih =>
    rw [List.map_cons, List.foldl_cons, List.foldl_cons, unplaced_readLexeme, ih]

theorem flattenRegions_unplaced (inner : List Token) (regions : List OpenRegion) :
    flattenRegions (inner.map Token.unplaced) (regions.map OpenRegion.unplaced) =
      (flattenRegions inner regions).map Token.unplaced := by
  induction regions generalizing inner with
  | nil => rfl
  | cons region regions ih =>
    rw [List.map_cons, flattenRegions, flattenRegions, ← ih]
    simp [OpenRegion.unplaced]

theorem unplaced_finish (folding : Folding) :
    folding.unplaced.finish = folding.finish.unplaced := by
  have regions : flattenRegions [] (folding.regions.map OpenRegion.unplaced) =
      (flattenRegions [] folding.regions).map Token.unplaced :=
    flattenRegions_unplaced [] folding.regions
  simp [finish, flatten, unplaced, Chain.unplaced, regions]

end Folding

theorem Chain.unplaced_ofLexemes (language : Language) (lines : LineIndex)
    (lexemes : List Lexeme) :
    Chain.ofLexemes language ⟨[]⟩ (lexemes.map Lexeme.unplaced) =
      (Chain.ofLexemes language lines lexemes).unplaced := by
  have start : Folding.start.unplaced = .start := by
    simp [Folding.start, Folding.unplaced, unplaced, empty]
  rw [ofLexemes, ofLexemes, ← Folding.unplaced_finish, ← Folding.unplaced_foldl, start]

end DeclScan
