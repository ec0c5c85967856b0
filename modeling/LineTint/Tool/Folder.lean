import LineTint.Fault
import LineTint.FileName
import LineTint.Text.Bytes

/-!
# Folders

A folder of files as a value, and what a path finds in it. A directory inside it
is there because a file is in it. Only the folder itself is part of the value:
an absolute path, or one that goes up from the folder, finds nothing, also where
it would come back to a file of the folder.
-/

namespace LineTint.Tool
set_option autoImplicit false

/-- The files of a folder: the components of each path, and its bytes. -/
structure Folder where
  files : List (List (List UInt8) × List UInt8)

namespace Folder
open FileName

/-- The folder of files given by path. -/
def ofList (files : List (String × List UInt8)) : Folder :=
  ⟨files.map fun entry => (components (Text.utf8 entry.1), entry.2)⟩

/-- The largest length of a component of a path, in bytes. -/
def maxNameLength : Nat := 255

/-- The largest length of a path, in bytes. -/
def maxPathLength : Nat := 4095

/-- The directory is the folder or has a file in it. -/
def isDirectory (f : Folder) (path : List (List UInt8)) : Bool :=
  path.isEmpty || f.files.any fun entry => path.isPrefixOf entry.1 && path.length < entry.1.length

/-- Goes from a directory along the components of a path. What lies outside the
folder is not found. -/
def walk (f : Folder) (directory : List (List UInt8)) :
    List (List UInt8) → Except IoFault (List UInt8)
  | [] => .error .isDirectory
  | piece :: pieces =>
    if piece = [] ∨ piece = [dot] then walk f directory pieces
    else if piece = [dot, dot] then
      if directory.isEmpty then .error .notFound else walk f directory.dropLast pieces
    else if maxNameLength < piece.length then .error .nameTooLong
    else
      let path := directory ++ [piece]
      match f.files.lookup path with
      | some bytes => if pieces.isEmpty then .ok bytes else .error .notDirectory
      | none => if f.isDirectory path then walk f path pieces else .error .notFound

/-- The bytes of the file that a path finds. -/
def read (f : Folder) (path : List UInt8) : Except IoFault (List UInt8) :=
  if maxPathLength < path.length then .error .nameTooLong
  else if path.head? = some slash then
    if path.all (· == slash) then .error .isDirectory else .error .notFound
  else f.walk [] (components path)

end Folder
end LineTint.Tool
