import SolidScene.Decimal.Layout
import SolidScene.Disk.Access
import SolidScene.Text.Quoted

/-!
# What can go wrong with a command

A command that was understood fails because of the file it reads, because of what the file
holds, or because of the file it writes.
-/

namespace SolidScene.CommandLine

/-- What a command expects of the file it reads. -/
inductive Role
  | scene
  | script
  deriving DecidableEq, Repr

/-- The word for what is expected of a file. -/
def Role.name : Role → String
  | .scene => "scene"
  | .script => "script"

/-- What a command writes. -/
inductive Product
  | scene
  | script
  | report
  | stl
  deriving DecidableEq, Repr

/-- The word for what is written. -/
def Product.name : Product → String
  | .scene => "scene"
  | .script => "script"
  | .report => "report"
  | .stl => "stl"

/-- Why a command fails. -/
inductive Problem
  /-- There is no such file; `root` is the nearest workspace around the current folder. -/
  | missing (role : Role) (path : String) (current : Disk.Path) (root : Option Disk.Path)
  /-- Where the file should be cannot be reached. -/
  | unreachable (role : Role) (path : String)
  /-- There is something else than a file. -/
  | notFile (role : Role) (path : String)
  /-- The file cannot be read, or is not text. -/
  | unreadable (role : Role) (path : String)
  /-- The file is not a scene file. -/
  | notScene (path : String)
  /-- A shape, counted from one, has a scale that no shape may have. -/
  | invalidScale (number : Nat) (path : String) (scale : Float)
  /-- There is nothing to make a mesh of. -/
  | noShapes (path : String)
  /-- The file cannot be written. -/
  | unwritable (product : Product) (path : String)
  deriving DecidableEq

open Text (quoted)

/-- The advice that follows the name of a missing file inside a workspace. -/
def hint (role : Role) (root : Disk.Path) : String :=
  "\nHint: relative " ++ role.name ++ " paths resolve against the cwd; run from " ++
    quoted root.text ++ " or pass an absolute path."

/-- What is said about a problem. -/
def Problem.message : Problem → String
  | .missing role path current root =>
    role.name ++ " file not found: " ++ quoted path ++ " (cwd: " ++ quoted current.text ++ ")" ++
      (root.map (hint role)).getD ""
  | .unreachable role path => "stat " ++ role.name ++ " file: " ++ quoted path
  | .notFile role path => role.name ++ " path is not a file: " ++ quoted path
  | .unreadable role path => "read " ++ role.name ++ ": " ++ quoted path
  | .notScene path => "parse scene JSON: " ++ quoted path
  | .invalidScale number path scale =>
    "shape #" ++ toString number ++ " in " ++ quoted path ++ " has invalid scale " ++
      plainText scale ++ "; scale must be positive"
  | .noShapes path => "scene has no shapes to export: " ++ quoted path
  | .unwritable product path => "write " ++ product.name ++ ": " ++ quoted path

end SolidScene.CommandLine
