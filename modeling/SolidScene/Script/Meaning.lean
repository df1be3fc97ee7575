import SolidScene.Parameters
import SolidScene.Script.Parser
import SolidScene.Shape

/-!
# What a script says

Each call of a script stands for some solids.  `cube`, `sphere` and `cylinder` stand for the
solid that their arguments size, or for none.  `difference` stands for the first solid of its
first child, which is how a hollow shape is read.  Any other call stands for the solids of its
children.  Lengths are divided by the factor of the unit, and a solid whose scale is not finite
and above zero is left out.
-/

namespace SolidScene

namespace Script

/-! ### Looking up arguments -/

/-- The value of the first argument of a name. -/
def namedValue? (arguments : List Argument) (name : String) : Option Value :=
  (arguments.find? (·.name == some name)).map (·.value)

/-- The number that the first argument of a name has for its value. -/
def namedNumber? (arguments : List Argument) (name : String) : Option Float :=
  (namedValue? arguments name).bind Value.toFloat?

/-- The value of the argument without a name at a position, counting from zero. -/
def positional? (arguments : List Argument) (index : Nat) : Option Value :=
  (arguments.filter (·.name.isNone))[index]?.map (·.value)

/-- The number at a position. -/
def positionalNumber? (arguments : List Argument) (index : Nat) : Option Float :=
  (positional? arguments index).bind Value.toFloat?

/-! ### The size that arguments give -/

/-- The edge that a value gives a box: a number, or a vector that starts with one. -/
def edgeOfValue? : Value → Option Float
  | .vector items => items.head?.bind Value.toFloat?
  | v => v.toFloat?

/-- The edge of a box: `size`, or else the first argument without a name. -/
def boxEdge? (arguments : List Argument) : Option Float :=
  ((namedValue? arguments "size").or (positional? arguments 0)).bind edgeOfValue?

/-- The radius of a sphere: `r`, half of `d`, or the first argument without a name. -/
def sphereRadius? (arguments : List Argument) : Option Float :=
  (namedNumber? arguments "r").or <|
    ((namedNumber? arguments "d").map (· * 0.5)).or <|
      positionalNumber? arguments 0

/-- The radius of a cylinder: `r` or `r1`, half of `d` or `d1`, or the second argument without a
name. -/
def cylinderRadius? (arguments : List Argument) : Option Float :=
  (namedNumber? arguments "r").or <|
    (namedNumber? arguments "r1").or <|
      (((namedNumber? arguments "d").or (namedNumber? arguments "d1")).map (· * 0.5)).or <|
        positionalNumber? arguments 1

/-- The kind of solid that a call of a name makes. -/
def kindOfCall? : String → Option Kind
  | "cube" => some .box
  | "sphere" => some .sphere
  | "cylinder" => some .cylinder
  | _ => none

/-- The scale that a length gives a solid of a kind. -/
def scaleOfLength : Kind → Float → Float
  | .box, edge => edge
  | .sphere, radius => radius / sphereRadiusFactor
  | .cylinder, radius => radius / cylinderRadiusFactor

/-- The length that gives a solid its scale: the edge of a box, the radius of the others. -/
def length? : Kind → List Argument → Option Float
  | .box => boxEdge?
  | .sphere => sphereRadius?
  | .cylinder => cylinderRadius?

/-- The solid of a kind that arguments size, if its scale is finite and above zero; lengths are
divided by `factor`. -/
def solid? (factor : Float) (kind : Kind) (arguments : List Argument) : Option Solid :=
  (length? kind arguments).bind fun length =>
    let scale := scaleOfLength kind length / factor
    if Solid.validScale scale then some ⟨kind, scale⟩ else none

/-! ### The solids of a script -/

mutual

/-- The solids that a call stands for. -/
def Node.solids (factor : Float) : Node → List Solid
  | .call name arguments children =>
    match kindOfCall? name with
    | some kind => (solid? factor kind arguments).toList
    | none =>
      if name = "difference" then
        match children with
        | [] => []
        | first :: _ => (first.solids factor).take 1
      else solidsOf factor children

/-- The solids that some calls stand for, in order. -/
def solidsOf (factor : Float) : List Node → List Solid
  | [] => []
  | node :: rest => node.solids factor ++ solidsOf factor rest

end

theorem solidsOf_eq_flatMap (factor : Float) (nodes : List Node) :
    solidsOf factor nodes = nodes.flatMap (Node.solids factor) := by
  induction nodes with
  | nil => rfl
  | cons node rest ih => simp [solidsOf, ih]

/-- The solids of a script whose lengths are in `unit`, in the order of the text. -/
def read (unit : LengthUnit) (text : String) : List Solid :=
  (parse text.toList).flatMap (Node.solids unit.factor)

end Script

end SolidScene
