import DeclScan.Language
import DeclScan.Tag

/-!
# Source files

The language of a file and whether it is a header follow from the extension of
its name.  Unless other options are given, a file is in C if its extension is
`c` in lower case, and a header if its extension is a known one in either case.
-/

set_option autoImplicit false

namespace DeclScan

structure SourceFile where
  language : Language
  isHeader : Bool
deriving DecidableEq, Repr

/-- The kinds of tags to collect, and the extensions, without the dot, of
headers and of files in C. -/
structure IndexOptions where
  kinds : List TagKind := [.namespaceVariable, .member]
  headerExtensions : List String := ["h", "hh", "hpp", "hxx", "h++", "inl"]
  cExtensions : List String := ["c"]
deriving DecidableEq, Repr

namespace IndexOptions

/-- Letters of the ASCII alphabet match in either case. -/
def isHeaderExtension (options : IndexOptions) (extension : String) : Bool :=
  options.headerExtensions.any fun known =>
    known.toList.map Char.toLower == extension.toList.map Char.toLower

def isCExtension (options : IndexOptions) (extension : String) : Bool :=
  options.cExtensions.any fun known => known == extension

end IndexOptions

namespace SourceFile

/-- The last part of a path that names something.  Parts that are empty or a
single dot name nothing, and a path that ends in two dots has no file name. -/
def fileName? (path : String) : Option String :=
  match ((path.splitOn "/").filter fun part => part != "" && part != ".").getLast? with
  | some name => if name = ".." then none else some name
  | none => none

/-- What stands behind the last dot of a file name, if anything precedes that
dot. -/
def extensionOf? (name : String) : Option String :=
  let reversed := name.toList.reverse
  match reversed.dropWhile (· ≠ '.') with
  | _ :: _ :: _ => some (String.ofList (reversed.takeWhile (· ≠ '.')).reverse)
  | _ => none

/-- A path without an extension counts as one with an empty extension. -/
def ofPath (options : IndexOptions) (path : String) : SourceFile :=
  let extension := ((fileName? path).bind extensionOf?).getD ""
  { language := if options.isCExtension extension then .c else .cpp
    isHeader := options.isHeaderExtension extension }

end SourceFile

end DeclScan
