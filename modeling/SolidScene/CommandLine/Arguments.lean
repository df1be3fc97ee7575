import SolidScene.Decimal.Numeral
import SolidScene.Parameters
import SolidScene.Stl.Export

/-!
# Arguments

`Invocation.read` turns the arguments of the program into a command.  Each command takes one file
and has options of its own, in any order around it.  An option takes its value from the next
argument or after an equals sign; a value that starts with a minus only after an equals sign.
No option may come twice, and `--` ends the options.
-/

namespace SolidScene.CommandLine

/-- What the program is asked to do. -/
inductive Command
  /-- Write the script of a scene file. -/
  | generate (scene : String) (out : Option String) (change : ParameterChange)
  /-- Read a script into a scene file. -/
  | parse (script : String) (out : Option String) (structured : Bool) (unit : LengthUnit)
  /-- Write the mesh of a scene file. -/
  | exportStl (scene out : String) (format : Stl.Format) (segments : UInt32)
  /-- Write the report on a scene file. -/
  | inspect (scene : String) (report : Option String)
  deriving DecidableEq

/-- What arguments come to. -/
inductive Invocation
  | run (command : Command)
  | help
  deriving DecidableEq

/-- What is wrong with arguments. -/
inductive UsageError
  | noCommand
  | unknownCommand (name : String)
  | unknownOption (argument : String)
  | repeatedOption (name : String)
  | missingValue (name : String)
  | unwantedValue (name : String)
  | badValue (name value : String)
  | missingFile
  | extraArgument (argument : String)
  deriving DecidableEq, Repr

/-! ### Values of options -/

/-- A path: any text but the empty one. -/
def readPath? (s : String) : Option String := if s = "" then none else some s

/-- A unit of length. -/
def readUnit? (s : String) : Option LengthUnit := (LengthUnit.read s).toOption

/-- A style. -/
def readStyle? (s : String) : Option Style := (Style.read s).toOption

/-- A double. -/
def readNumber? (s : String) : Option Float := readFloat? s.toList

/-- A word in digits, under a sign if there is one. -/
def readWord? (s : String) : Option UInt32 :=
  let (negative, digits) := match s.toList with
    | '-' :: cs => (true, cs)
    | '+' :: cs => (false, cs)
    | cs => (false, cs)
  let n := natOfDigits digits
  if digits.isEmpty || !digits.all Char.isDigit || (negative && n != 0) || n ≥ UInt32.size then none
  else some n.toUInt32

/-! ### Options -/

/-- An option of a command: its name without dashes, and which values it takes, if it takes one. -/
structure OptionRule where
  name : String
  accepts : Option (String → Bool)

/-- An option without a value. -/
def flag (name : String) : OptionRule := ⟨name, none⟩

/-- An option whose value is read by `read?`. -/
def valued {α : Type} (name : String) (read? : String → Option α) : OptionRule :=
  ⟨name, some fun s => (read? s).isSome⟩

/-- Arguments sorted into the file and the options with their values. -/
structure Sorted where
  file : Option String
  options : List (String × String)

namespace Sorted

/-- Nothing yet. -/
def empty : Sorted := ⟨none, []⟩

/-- Takes the file; there is only one. -/
def takeFile (s : Sorted) (argument : String) : Except UsageError Sorted :=
  if s.file.isSome then .error (.extraArgument argument)
  else if argument = "" then .error (.badValue "file" argument)
  else .ok { s with file := some argument }

/-- Takes an option with its value. -/
def takeOption (s : Sorted) (rule : OptionRule) (value : String) : Except UsageError Sorted :=
  if (s.options.lookup rule.name).isSome then .error (.repeatedOption rule.name)
  else if rule.accepts.all (· value) then
    .ok { s with options := s.options ++ [(rule.name, value)] }
  else .error (.badValue rule.name value)

/-- Whether a flag is there. -/
def has (s : Sorted) (name : String) : Bool := (s.options.lookup name).isSome

/-- The value of an option. -/
def value? {α : Type} (s : Sorted) (name : String) (read? : String → Option α) : Option α :=
  (s.options.lookup name).bind read?

end Sorted

/-- Whether an argument is an option and not a file or a value. -/
def isOption (argument : String) : Bool :=
  match argument.toList with
  | '-' :: _ :: _ => true
  | _ => false

/-- An option argument: its name, and the value after an equals sign, if there is one. -/
def splitOption (name : List Char) : String × Option String :=
  match name.dropWhile (· != '=') with
  | _ :: value => (String.ofList (name.takeWhile (· != '=')), some (String.ofList value))
  | [] => (String.ofList name, none)

/-- Sorts arguments; none where help is asked for. -/
def sort (rules : List OptionRule) (s : Sorted) : List String → Except UsageError (Option Sorted)
  | [] => .ok (some s)
  | argument :: rest =>
    match argument.toList with
    | ['-', '-'] => (rest.foldlM Sorted.takeFile s).map some
    | '-' :: '-' :: text =>
      let (name, value?) := splitOption text
      match rules.find? (·.name == name), value? with
      | some rule, some value =>
        if rule.accepts.isSome then do sort rules (← s.takeOption rule value) rest
        else .error (.unwantedValue name)
      | some rule, none =>
        if rule.accepts.isNone then do sort rules (← s.takeOption rule "") rest
        else match rest with
          | value :: rest =>
            if isOption value then .error (.missingValue name)
            else do sort rules (← s.takeOption rule value) rest
          | [] => .error (.missingValue name)
      | none, none => if name = "help" then .ok none else .error (.unknownOption argument)
      | none, some _ => .error (.unknownOption argument)
    | '-' :: 'h' :: _ => .ok none
    | '-' :: _ :: _ => .error (.unknownOption argument)
    | _ => do sort rules (← s.takeFile argument) rest

/-! ### Commands -/

/-- A command by name: its options, and the command that a file and options come to. -/
structure CommandRule where
  name : String
  options : List OptionRule
  build : (file : String) → Sorted → Command

/-- `generate SCENE`. -/
def generateRule : CommandRule where
  name := "generate"
  options := [valued "out" readPath?, valued "unit" readUnit?, valued "wall-thickness" readNumber?,
    valued "resolution" readWord?, valued "style" readStyle?]
  build file s := .generate file (s.value? "out" readPath?) {
    unit := s.value? "unit" readUnit?
    wallThickness := s.value? "wall-thickness" readNumber?
    resolution := s.value? "resolution" readWord?
    style := s.value? "style" readStyle? }

/-- `parse SCRIPT`. -/
def parseRule : CommandRule where
  name := "parse"
  options := [valued "out" readPath?, flag "structured", valued "unit" readUnit?]
  build file s := .parse file (s.value? "out" readPath?) (s.has "structured")
    ((s.value? "unit" readUnit?).getD .millimeters)

/-- The file to which a mesh is written where no other is named. -/
def defaultMeshFile : String := "scene.stl"

/-- `export-stl SCENE`. -/
def exportRule : CommandRule where
  name := "export-stl"
  options := [valued "out" readPath?, flag "ascii", valued "segments" readWord?]
  build file s := .exportStl file ((s.value? "out" readPath?).getD defaultMeshFile)
    (if s.has "ascii" then .ascii else .binary)
    ((s.value? "segments" readWord?).getD Stl.defaultSegments)

/-- `inspect SCENE`. -/
def inspectRule : CommandRule where
  name := "inspect"
  options := [valued "report" readPath?]
  build file s := .inspect file (s.value? "report" readPath?)

/-- All commands. -/
def commandRules : List CommandRule := [generateRule, parseRule, exportRule, inspectRule]

/-- The command of a rule that arguments come to. -/
def CommandRule.read (rule : CommandRule) (arguments : List String) :
    Except UsageError Invocation := do
  match ← sort rule.options .empty arguments with
  | none => return .help
  | some s =>
    match s.file with
    | some file => return .run (rule.build file s)
    | none => throw .missingFile

/-- Help on the program, on a command, or on help itself. -/
def readHelp : List String → Except UsageError Invocation
  | [] => .ok .help
  | ["help"] => .ok .help
  | [name] =>
    if (commandRules.find? (·.name == name)).isSome then .ok .help
    else .error (.unknownCommand name)
  | _ :: name :: _ => .error (.unknownCommand name)

/-- What the arguments of the program come to. -/
def Invocation.read : List String → Except UsageError Invocation
  | [] => .error .noCommand
  | "help" :: rest => readHelp rest
  | name :: rest =>
    match commandRules.find? (·.name == name) with
    | some rule => rule.read rest
    | none =>
      if name = "--help" ∨ name.toList.take 2 = ['-', 'h'] then .ok .help
      else .error (.unknownCommand name)

end SolidScene.CommandLine
