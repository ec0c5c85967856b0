/-!
# File names

A path is a row of bytes. Its file name is the last component, where slashes
and single dots at its end do not count, and its extension is what follows the
last dot of the file name. A name that begins with its only dot has no
extension.
-/

namespace LineTint.FileName
set_option autoImplicit false

/-- The byte that separates the components of a path. -/
def slash : UInt8 := 0x2F

/-- The byte of a dot. -/
def dot : UInt8 := 0x2E

/-- The components of a path, as the pieces between slashes. -/
def components (path : List UInt8) : List (List UInt8) :=
  path.splitOn slash

/-- The last component that is neither empty nor a single dot, unless it is
the parent directory. -/
def base? (path : List UInt8) : Option (List UInt8) :=
  match (components path).reverse.find? fun piece => piece ≠ [] ∧ piece ≠ [dot] with
  | none => none
  | some piece => if piece = [dot, dot] then none else some piece

/-- What follows the last dot of a name, if anything stands before that dot. -/
def afterLastDot? (name : List UInt8) : Option (List UInt8) :=
  let tail := name.reverse.takeWhile (· ≠ dot)
  match name.reverse.dropWhile (· ≠ dot) with
  | _ :: _ :: _ => some tail.reverse
  | _ => none

/-- The extension of a path's file name. -/
def extension? (path : List UInt8) : Option (List UInt8) :=
  (base? path).bind afterLastDot?

end LineTint.FileName
