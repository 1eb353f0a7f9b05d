import DeclScan.Chain
import DeclScan.Lexeme.Reading

/-!
# Folding brackets

Folding turns the lexemes of a statement into a chain in which every region
between matching round or square brackets is one group.  Curly brackets fold
only inside such a region: outside of all regions a `{` ends the statement.
A closing bracket that does not match the innermost open one stays a plain
token, and so does an opening one that is never closed.
-/

set_option autoImplicit false

namespace DeclScan

/-- An open bracket and the tokens read since, in the order of reading. -/
structure OpenRegion where
  bracket : Bracket
  opener : Token
  contents : Array Token

/-- The state of folding.  The innermost open region comes first. -/
structure Folding where
  chain : Chain
  outside : Array Token
  regions : List OpenRegion

namespace Folding

def start : Folding := ⟨.empty, #[], []⟩

def add (folding : Folding) (token : Token) : Folding :=
  match folding.regions with
  | [] => { folding with outside := folding.outside.push token }
  | region :: regions =>
    { folding with
      regions := { region with contents := region.contents.push token } :: regions }

def opens (folding : Folding) : Bracket → Bool
  | .round | .square => true
  | .curly => !folding.regions.isEmpty
  | .angle => false

def read (folding : Folding) (token : Token) : Folding :=
  match token.kind with
  | .opening bracket =>
    if folding.opens bracket then
      { folding with regions := ⟨bracket, token, #[]⟩ :: folding.regions }
    else folding.add token
  | .closing bracket =>
    match folding.regions with
    | region :: regions =>
      if region.bracket = bracket then
        let (group, chain) := folding.chain.storeGroup bracket region.opener
          (region.contents.push token).toList
        { folding with chain := chain, regions := regions }.add group
      else folding.add token
    | [] => folding.add token
  | _ => folding.add token

def readLexeme (language : Language) (lines : LineIndex) (folding : Folding)
    (lexeme : Lexeme) : Folding :=
  let (token, chain) := folding.chain.store (.ofLexeme language lexeme) lexeme.text lexeme.span
    (lines.position lexeme.span.start) []
  { folding with chain := chain }.read token

/-- The tokens of regions that were never closed, the outermost region first,
and behind them what stands inside the innermost one. -/
def flattenRegions (inner : List Token) : List OpenRegion → List Token
  | [] => inner
  | region :: regions =>
    flattenRegions (region.opener :: region.contents.toList ++ inner) regions

def flatten (folding : Folding) : List Token :=
  folding.outside.toList ++ flattenRegions [] folding.regions

def finish (folding : Folding) : Chain := { folding.chain with live := folding.flatten }

end Folding

def Chain.ofLexemes (language : Language) (lines : LineIndex) (lexemes : List Lexeme) : Chain :=
  (lexemes.foldl (Folding.readLexeme language lines) .start).finish

def tokenize (source : String) (language : Language) : Except LexFault Chain :=
  match lex source with
  | .ok lexemes => .ok (.ofLexemes language (.ofText source.toList) lexemes)
  | .error fault => .error fault

end DeclScan
