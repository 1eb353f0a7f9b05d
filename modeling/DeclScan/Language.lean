/-!
# The two languages

Statements are read as C or as C++.  The language decides which words are
reserved, and whether a variable may be declared by constructor arguments.
-/

set_option autoImplicit false

namespace DeclScan

inductive Language where
  | c
  | cpp
deriving DecidableEq, Repr

def Language.isCpp : Language → Bool
  | .c => false
  | .cpp => true

end DeclScan
