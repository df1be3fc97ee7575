import SolidScene.CommandLine.Arguments
import SolidScene.CommandLine.Problem
import SolidScene.Document.Report
import SolidScene.Document.Scene
import SolidScene.Script.Meaning
import SolidScene.Script.Scan
import SolidScene.Script.Writer

/-!
# What commands make of a file

A command reads one file and puts out one text or one file.  `Command.evaluate` says which, from
the text of the file that it reads; no disk is asked.
-/

namespace SolidScene.CommandLine

/-- What a command puts out. -/
inductive Output
  /-- A text for the screen. -/
  | print (text : String)
  /-- A file. -/
  | save (product : Product) (path : String) (content : ByteArray)

/-- A text for a file, or for the screen where no file is named. -/
def Output.ofText (product : Product) (text : String) : (path : Option String) → Output
  | some path => .save product path text.toUTF8
  | none => .print text

namespace Command

/-- What a command expects of the file it reads. -/
def role : Command → Role
  | .parse .. => .script
  | .generate .. | .exportStl .. | .inspect .. => .scene

/-- The file that a command reads. -/
def file : Command → String
  | .generate scene .. => scene
  | .parse script .. => script
  | .exportStl scene .. => scene
  | .inspect scene .. => scene

/-- The first shape whose scale is not finite and above zero, with its number counted from one. -/
def firstInvalid? (shapes : List Shape) : Option (Nat × Float) :=
  (shapes.zipIdx 1).findSome? fun (s, number) =>
    if Solid.validScale s.scale then none else some (number, s.scale)

/-- The scene in a file of a given text. -/
def readScene (path text : String) : Except Problem SceneFile :=
  match SceneFile.read? text with
  | none => .error (.notScene path)
  | some file =>
    match firstInvalid? file.shapes with
    | some (number, scale) => .error (.invalidScale number path scale)
    | none => .ok file

/-- The scene file that a script is read into. -/
def sceneOfScript (structured : Bool) (unit : LengthUnit) (text : String) : SceneFile :=
  let solids := if structured then Script.read unit text else Script.scan text
  let style : Style := if structured then .shell else .solid
  ⟨{ Parameters.default with unit, style }, solids.map .atOrigin⟩

/-- What a command puts out when the file it reads has a given text. -/
def evaluate (command : Command) (text : String) : Except Problem Output :=
  match command with
  | .generate scene out change => do
    let file ← readScene scene text
    let script := Script.write (change.apply file.parameters) (file.shapes.map Shape.toSolid)
    return .ofText .script script out
  | .parse _ out structured unit =>
    return .ofText .scene (sceneOfScript structured unit text).text out
  | .exportStl scene out format segments => do
    let file ← readScene scene text
    if file.shapes.isEmpty then throw (.noShapes scene)
    return .save .stl out (Stl.exportShapes format segments file.shapes).toByteArray
  | .inspect scene report => do
    let file ← readScene scene text
    return .ofText .report (Report.inspect file.shapes file.parameters).text report

end Command

end SolidScene.CommandLine
