import DeclScan.Text.Span

/-!
# Lines and columns

A line ends behind each line feed.  Lines count from 0, and a column counts
the bytes between the start of its line and the offset.  Offsets behind the
end of the text stand on its last line.
-/

set_option autoImplicit false

namespace DeclScan

structure Position where
  line : Nat
  column : Nat
deriving DecidableEq, Repr

/-- The offsets at which the lines after the first one start, in order. -/
structure LineIndex where
  starts : List Nat
deriving DecidableEq, Repr

namespace LineIndex

def startsFrom (offset : Nat) : List Char → List Nat
  | [] => []
  | char :: rest =>
    let next := offset + char.utf8Size
    if char = '\n' then next :: startsFrom next rest else startsFrom next rest

def ofText (text : List Char) : LineIndex := ⟨startsFrom 0 text⟩

/-- The lines that start at or before `offset` are counted, and the last of
them is the one it stands on. -/
def position (index : LineIndex) (offset : Nat) : Position :=
  let reached := index.starts.takeWhile (· ≤ offset)
  ⟨reached.length, offset - reached.getLastD 0⟩

end LineIndex

end DeclScan
