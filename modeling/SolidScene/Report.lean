import SolidScene.Parameters
import SolidScene.Shape

/-!
# Inspecting a scene

A `Report` counts the shapes of each kind, measures the box they fill, and warns of what a
script does not say: where shapes are placed, and in which colours.
-/

namespace SolidScene

/-- How many shapes there are of each kind. -/
structure KindCounts where
  boxes : Nat
  spheres : Nat
  cylinders : Nat
  deriving DecidableEq, Repr

namespace KindCounts

/-- The number of shapes of a kind. -/
def get (counts : KindCounts) : Kind → Nat
  | .box => counts.boxes
  | .sphere => counts.spheres
  | .cylinder => counts.cylinders

/-- The number of solids of each kind in a list. -/
def ofKinds (kinds : List Kind) : KindCounts :=
  ⟨kinds.count .box, kinds.count .sphere, kinds.count .cylinder⟩

@[simp] theorem get_ofKinds (kinds : List Kind) (k : Kind) :
    (ofKinds kinds).get k = kinds.count k := by cases k <;> rfl

end KindCounts

/-- What is lost, or missing, when a scene goes through script text. -/
inductive Warning
  | emptyScene
  | positionNotEncoded (count : Nat)
  | colorNotEncoded (count : Nat)
  deriving DecidableEq, Repr

namespace Warning

/-- The name of a warning. -/
def code : Warning → String
  | emptyScene => "empty_scene"
  | positionNotEncoded _ => "position_not_encoded"
  | colorNotEncoded _ => "color_not_encoded"

/-- What a warning says. -/
def message : Warning → String
  | emptyScene => "Scene has no shapes; the generated script is empty."
  | positionNotEncoded count =>
    toString count ++ " shape(s) are placed off the origin; " ++
      "script text does not encode placement and parsing resets it."
  | colorNotEncoded count =>
    toString count ++ " shape(s) use a non-default colour; parsing reassigns kind defaults."

end Warning

/-- What inspection finds out about a scene. -/
structure Report where
  parameters : Parameters
  shapeCount : Nat
  counts : KindCounts
  extents : Option Bounds
  warnings : List Warning

namespace Report

/-- The number of shapes that are placed off the origin. -/
def placedCount (shapes : List Shape) : Nat := shapes.countP fun s => !s.position.isOrigin

/-- The number of shapes that are not in the colour of their kind. -/
def recoloredCount (shapes : List Shape) : Nat := shapes.countP fun s => !s.hasDefaultColor

/-- The box around the boxes of all shapes. -/
def extentsOf (shapes : List Shape) : Bounds :=
  shapes.foldl (fun b s => b.union s.bounds) .empty

/-- The warnings about a list of shapes, in the order in which they are given. -/
def warningsFor (shapes : List Shape) : List Warning :=
  (if shapes.isEmpty then [.emptyScene] else []) ++
    (if placedCount shapes > 0 then [.positionNotEncoded (placedCount shapes)] else []) ++
    (if recoloredCount shapes > 0 then [.colorNotEncoded (recoloredCount shapes)] else [])

/-- The report on some shapes. -/
def inspect (shapes : List Shape) (parameters : Parameters) : Report where
  parameters := parameters
  shapeCount := shapes.length
  counts := .ofKinds (shapes.map (·.kind))
  extents := if shapes.isEmpty then none else some (extentsOf shapes)
  warnings := warningsFor shapes

/-- Whether a warning of this name is given. -/
def hasWarning (report : Report) (code : String) : Bool := report.warnings.any (·.code == code)

end Report

end SolidScene
