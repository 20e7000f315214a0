/-!
A folder in memory: files by their relative path. A path is followed part by part, and every
part but the last must lead to a folder. Nothing lies above the topmost folder; what lies above
any other is not known.
-/

namespace BackupWatch.Config

structure Folder where
  files : List (String × ByteArray)

namespace Folder

/-- The parts of a path between its slashes. -/
def parts (path : String) : List String := (path.splitOn "/").filter (· != "")

/-- Where a file lies. -/
def place (name : String) : List String := (parts name).filter (· != ".")

/-- Whether the parts lead to a folder. -/
def isFolder (f : Folder) (here : List String) : Bool :=
  here.isEmpty || f.files.any fun file =>
    here.isPrefixOf (place file.1) && here != place file.1

/-- Follows the parts from a folder. A point stays in it, a pair of points leaves it again, which
changes nothing at the top. -/
def resolve (f : Folder) (isTop : Bool) :
    (here : List String) → List String → Option (List String)
  | here, [] => some here
  | here, p :: rest =>
    if !f.isFolder here then none
    else if p = "." then resolve f isTop here rest
    else if p = ".." then
      if here.isEmpty && !isTop then none else resolve f isTop here.dropLast rest
    else resolve f isTop (here ++ [p]) rest

/-- The content of the file that a path leads to from the folder. A path that ends in a slash
names no file. -/
def follow (f : Folder) (isTop : Bool) (path : String) : Option ByteArray :=
  if path.endsWith "/" then none
  else do
    let target ← f.resolve isTop [] (parts path)
    let file ← f.files.find? fun file => place file.1 == target
    return file.2

/-- All that is known of the folder at the top: the device that holds nothing. -/
def top : Folder := ⟨[("dev/null", .empty)]⟩

/-- The longest path that can be opened, in bytes. -/
def pathLimit : Nat := 4095

/-- The content of a file. A path that begins with a slash starts from the top. -/
def read? (f : Folder) (path : String) : Option ByteArray :=
  if path = "" ∨ pathLimit < path.utf8ByteSize then none
  else if path.startsWith "/" then top.follow true path
  else f.follow false path

end Folder
end BackupWatch.Config
