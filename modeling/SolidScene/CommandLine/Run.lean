import SolidScene.CommandLine.Command
import SolidScene.Disk.Access

/-!
# Running a command

A command obtains the text of its file, evaluates, and delivers what it puts out.  The file is
looked at before it is read, so that a missing one can be told from one that cannot be read;
the folders above an output file are made first.
-/

namespace SolidScene.CommandLine

open Disk (Access Path)

/-- What the program shows: its exit code, what it printed, and what went wrong. -/
structure Outcome where
  exitCode : Nat
  printed : String
  problem : Option Problem
  deriving DecidableEq

namespace Outcome

/-- All went well. -/
def success (printed : String) : Outcome := ⟨0, printed, none⟩

/-- A command failed. -/
def failure (problem : Problem) : Outcome := ⟨1, "", some problem⟩

/-- The arguments were not understood. -/
def usage : Outcome := ⟨2, "", none⟩

end Outcome

/-! ### Workspaces -/

/-- The file that marks a workspace. -/
def manifestName : String := "Cargo.toml"

/-- What the marking file of a workspace holds. -/
def manifestMark : List Char := "[workspace]".toList

/-- Whether a text holds another one. -/
def holds (part : List Char) : List Char → Bool
  | [] => part.isEmpty
  | c :: cs => part.isPrefixOf (c :: cs) || holds part cs

/-- A folder and those above it, innermost first. -/
def ancestors (p : Path) : List Path := (List.range (p.length + 1)).reverse.map (p.take ·)

/-- The path text of the marking file in a folder. -/
def manifestIn (folder : Path) : String := (folder ++ [manifestName] : Path).text

variable {m : Type → Type} [Monad m] [Access m]

/-- Whether a folder is a workspace. -/
def isWorkspace (folder : Path) : m Bool := do
  match (← Access.read (manifestIn folder)).bind String.fromUTF8? with
  | some manifest => return holds manifestMark manifest.toList
  | none => return false

/-- The first workspace among some folders. -/
def firstWorkspace? : List Path → m (Option Path)
  | [] => return none
  | folder :: rest => do if ← isWorkspace folder then return some folder else firstWorkspace? rest

/-! ### The parts of a run -/

/-- The text of the file that a command reads. -/
def obtain (role : Role) (path : String) : m (Except Problem String) := do
  match ← Access.status path with
  | .missing =>
    let current ← Access.current
    return .error (.missing role path current (← firstWorkspace? (ancestors current)))
  | .unreachable => return .error (.unreachable role path)
  | .folder => return .error (.notFile role path)
  | .file =>
    match (← Access.read path).bind String.fromUTF8? with
    | some text => return .ok text
    | none => return .error (.unreadable role path)

/-- Prints or writes what a command puts out. -/
def deliver : Output → m Outcome
  | .print text => return .success (text ++ "\n")
  | .save product path content => do
    Access.makeFolders (Disk.folderAbove path)
    if ← Access.write path content then return .success ""
    else return .failure (.unwritable product path)

/-- Runs a command. -/
def Command.run (command : Command) : m Outcome := do
  match ← obtain command.role command.file with
  | .error problem => return .failure problem
  | .ok text =>
    match command.evaluate text with
    | .error problem => return .failure problem
    | .ok output => deliver output

/-- What help says. -/
def helpText : String :=
  "Primitive-solid scenes, their scripts, and their meshes.\n\n" ++
    "Usage: generate SCENE [--out FILE] [--unit UNIT] [--wall-thickness X] [--resolution N]\n" ++
    "                [--style STYLE]\n" ++
    "       parse SCRIPT [--out FILE] [--structured] [--unit UNIT]\n" ++
    "       export-stl SCENE [--out FILE] [--ascii] [--segments N]\n" ++
    "       inspect SCENE [--report FILE]\n"

/-- Runs the program on its arguments. -/
def run (arguments : List String) : m Outcome :=
  match Invocation.read arguments with
  | .error _ => return .usage
  | .ok .help => return .success helpText
  | .ok (.run command) => command.run

end SolidScene.CommandLine
