import SolidScene.CommandLine.Run

/-!
# The program

`main` runs a command on the disk of the machine.
-/

namespace SolidScene.CommandLine

open Disk (Access Path)

/-- The path that names lead to, blanks between slashes dropped. -/
def pathOfText (text : String) : Path := (Disk.namesOf text).filter (· != "")

/-- What the machine says there is at a path. -/
def machineStatus (text : String) : IO Disk.Status := do
  try
    match (← (System.mkFilePath [text]).metadata).type with
    | .file => return .file
    | _ => return .folder
  catch
    | .noFileOrDirectory .. => return .missing
    | _ => return .unreachable

instance : Access IO where
  current := return pathOfText (← IO.currentDir).toString
  status := machineStatus
  read text := do
    try return some (← IO.FS.readBinFile text) catch _ => return none
  makeFolders text := do
    if text.utf8ByteSize ≤ Disk.longestPath then
      try IO.FS.createDirAll text catch _ => pure ()
  write text content := do
    try IO.FS.writeBinFile text content; return true catch _ => return false

end SolidScene.CommandLine

open SolidScene.CommandLine in
/-- Runs the program on its arguments and gives its exit code. -/
def main (arguments : List String) : IO UInt32 := do
  let outcome ← run arguments
  IO.print outcome.printed
  match outcome.problem with
  | some problem => IO.eprintln ("Error: " ++ problem.message)
  | none => if outcome.exitCode ≠ 0 then IO.eprintln helpText
  return outcome.exitCode.toUInt32
