/-!
# What commands ask of a disk

Commands are written against a handful of requests, so that they run on a real disk and on a
`Disk.Tree` alike.  A request names a file by a path text, relative to the current folder
unless it starts with a slash.  `folderAbove` gives the path text of the folder that a file
lies in.
-/

namespace SolidScene.Disk

/-- A place by the names of the folders on the way from the root. -/
abbrev Path := List String

/-- A path as text. -/
def Path.text (p : Path) : String := "/" ++ "/".intercalate p

/-! ### Path texts -/

/-- The most bytes that a path text may have. -/
def longestPath : Nat := 4095

/-- The names in a path text, which slashes keep apart. -/
def namesOf (text : String) : List String := (text.toList.splitOn '/').map String.ofList

example : namesOf "/a//b" = ["", "a", "", "b"] := by decide

/-- A name that stays in the folder it is looked up in. -/
def staysPut (name : String) : Bool := name == "" || name == "."

/-- A row of names without those at its end that stay where they are. -/
def trimNames (names : List String) : List String := (names.reverse.dropWhile staysPut).reverse

/-- The names in front of the last one that does not stay where it is, trimmed. -/
def namesAbove (names : List String) : List String := trimNames (trimNames names).dropLast

example : namesAbove ["a", ".", "b", "", "c", "."] = ["a", ".", "b"] := by decide

example : namesAbove ["", "c"] = [] := by decide

/-- The path text of the folder above. -/
def folderAbove (text : String) : String := "/".intercalate (namesAbove (namesOf text))

/-! ### Requests -/

/-- What there is at a path. -/
inductive Status
  | file
  | folder
  | missing
  /-- The way there leads through something that is no folder, or has a name no file can have. -/
  | unreachable
  deriving DecidableEq, Repr

/-- The requests that commands make. -/
class Access (m : Type → Type) where
  /-- The current folder. -/
  current : m Path
  /-- What there is at a path. -/
  status : String → m Status
  /-- The content of a file, if it can be read. -/
  read : String → m (Option ByteArray)
  /-- Makes a folder and those above it as far as they can be made; none where the path text is
  longer than `longestPath`. -/
  makeFolders : String → m Unit
  /-- Replaces the content of a file or makes a new file; whether that could be done. -/
  write : String → ByteArray → m Bool

end SolidScene.Disk
