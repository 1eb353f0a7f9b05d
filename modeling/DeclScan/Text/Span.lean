/-!
# Byte spans

Offsets count UTF-8 bytes from the start of the text.  A span runs from its
first byte to just behind its last one, so it cannot end before it starts.
-/

set_option autoImplicit false

namespace DeclScan

structure Span where
  start : Nat
  stop : Nat
  start_le_stop : start ≤ stop := by omega
deriving DecidableEq, Repr

namespace Span

def ofBounds? (start stop : Nat) : Option Span :=
  if ordered : start ≤ stop then some ⟨start, stop, ordered⟩ else none

def ofLength (start length : Nat) : Span := ⟨start, start + length, by omega⟩

def cover (first second : Span) : Span :=
  ⟨min first.start second.start, max first.stop second.stop, by
    have := first.start_le_stop
    omega⟩

end Span

def byteLength : List Char → Nat
  | [] => 0
  | char :: rest => char.utf8Size + byteLength rest

theorem byteLength_append (left right : List Char) :
    byteLength (left ++ right) = byteLength left + byteLength right := by
  induction left with
  | nil => simp [byteLength]
  | cons char rest ih => simp only [List.cons_append, byteLength, ih]; omega

end DeclScan
