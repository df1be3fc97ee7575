import SolidScene.Text.Blank
import SolidScene.Text.Quoted

/-!
# Parameters

What a script is written with: the unit of length, the style, and for hollow shapes the
thickness of the wall and the resolution of curved surfaces.  Units and styles are named in
any case, with white space around the name.
-/

namespace SolidScene

/-- The unit in which lengths are written. -/
inductive LengthUnit
  | millimeters
  | centimeters
  | meters
  deriving DecidableEq, Repr, Inhabited

namespace LengthUnit

/-- The units, shortest first. -/
def all : List LengthUnit := [millimeters, centimeters, meters]

/-- The symbol of a unit. -/
def symbol : LengthUnit → String
  | millimeters => "mm"
  | centimeters => "cm"
  | meters => "m"

/-- The number by which a scene length is multiplied when it is written. -/
def factor : LengthUnit → Float
  | millimeters => 1.0
  | centimeters => 10.0
  | meters => 1000.0

/-- The unit of a given symbol. -/
def ofSymbol? (s : String) : Option LengthUnit := all.find? (·.symbol == s)

@[simp] theorem ofSymbol?_symbol (u : LengthUnit) : ofSymbol? u.symbol = some u := by
  cases u <;> decide

end LengthUnit

/-- How a shape is written. -/
inductive Style
  /-- Bare solids. -/
  | solid
  /-- Hollow shapes: a solid with a smaller one cut out. -/
  | shell
  deriving DecidableEq, Repr, Inhabited

namespace Style

/-- The styles, the default first. -/
def all : List Style := [solid, shell]

/-- The name of a style. -/
def name : Style → String
  | solid => "solid"
  | shell => "shell"

/-- The style of a given name. -/
def ofName? (s : String) : Option Style := all.find? (·.name == s)

@[simp] theorem ofName?_name (s : Style) : ofName? s.name = some s := by cases s <;> decide

end Style

/-! ### Reading names as a user writes them -/

/-- A name as it is looked up: without white space around it and in lower case. -/
def canonicalName (s : String) : String := String.ofList ((Text.trim s.toList).map Char.toLower)

/-- A name that is not in its list. -/
inductive NameError
  | unknownUnit (name : String)
  | unknownStyle (name : String)
  deriving DecidableEq, Repr

/-- What is said about a name that is not in its list. -/
def NameError.message : NameError → String
  | unknownUnit name =>
    "unknown unit " ++ Text.quoted name ++ ", expected one of: " ++
      ", ".intercalate (LengthUnit.all.map LengthUnit.symbol)
  | unknownStyle name =>
    "unknown output style " ++ Text.quoted name ++ ", expected one of: " ++
      ", ".intercalate (Style.all.map Style.name)

/-- The unit that a user names. -/
def LengthUnit.read (s : String) : Except NameError LengthUnit :=
  match ofSymbol? (canonicalName s) with
  | some u => .ok u
  | none => .error (.unknownUnit s)

/-- The style that a user names. -/
def Style.read (s : String) : Except NameError Style :=
  match ofName? (canonicalName s) with
  | some style => .ok style
  | none => .error (.unknownStyle s)

/-! ### The parameters -/

/-- What a script is written with. -/
structure Parameters where
  unit : LengthUnit
  wallThickness : Float
  resolution : UInt32
  style : Style
  deriving DecidableEq

namespace Parameters

/-- The parameters of a scene that states none. -/
def default : Parameters := ⟨.millimeters, 0.1, 32, .solid⟩

instance : Inhabited Parameters := ⟨default⟩

end Parameters

/-- New values for some of the parameters. -/
structure ParameterChange where
  unit : Option LengthUnit := none
  wallThickness : Option Float := none
  resolution : Option UInt32 := none
  style : Option Style := none
  deriving DecidableEq

/-- The parameters after a change; what the change does not state stays. -/
def ParameterChange.apply (change : ParameterChange) (p : Parameters) : Parameters where
  unit := change.unit.getD p.unit
  wallThickness := change.wallThickness.getD p.wallThickness
  resolution := change.resolution.getD p.resolution
  style := change.style.getD p.style

end SolidScene
