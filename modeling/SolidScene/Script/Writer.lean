import SolidScene.Decimal.Hundredths
import SolidScene.Parameters
import SolidScene.Script.Printer
import SolidScene.Shape

/-!
# Writing a scene as a script

Every solid becomes one statement, in list order.  In the solid style it is the bare call; in
the shell style it is a `difference()` of the solid and a smaller one, the wall thickness being
taken off the radius of a sphere or a cylinder and off both sides of a box.  Lengths are
multiplied by the factor of the unit and written to two places.  Placement and colour have no
statement: a script is made of solids, not of shapes.  The thickness is not checked against the
size, so a thick wall gives a well-formed statement about an inverted cut-out.
-/

namespace SolidScene.Script

/-- A length as a value, to two places. -/
def lengthValue (x : Float) : Value := .ofHundredths (hundredths x)

/-- A named argument. -/
def named (name : String) (value : Value) : Argument := ⟨some name, value⟩

/-- A vector of three equal lengths as the only argument. -/
def equalSides (x : Float) : List Argument :=
  [⟨none, .vector [lengthValue x, lengthValue x, lengthValue x]⟩]

/-- A solid as a bare call, lengths multiplied by `factor`. -/
def solidStatement (factor : Float) (s : Solid) : Statement :=
  match s.kind with
  | .box => .call "cube" (equalSides (s.scale * factor))
  | .sphere => .call "sphere" [named "r" (lengthValue (sphereRadiusFactor * s.scale * factor))]
  | .cylinder =>
    .call "cylinder"
      [named "r" (lengthValue (cylinderRadiusFactor * s.scale * factor)),
        named "h" (lengthValue (cylinderHeightFactor * s.scale * factor))]

/-- A sphere call of a given radius and resolution. -/
def sphereCall (radius : Float) (resolution : UInt32) : Statement :=
  .call "sphere" [named "r" (lengthValue radius), named "$fn" (.ofNat resolution.toNat)]

/-- A cylinder call of a given radius, height and resolution. -/
def cylinderCall (radius height : Float) (resolution : UInt32) : Statement :=
  .call "cylinder"
    [named "r" (lengthValue radius), named "h" (lengthValue height),
      named "$fn" (.ofNat resolution.toNat)]

/-- The outside of a hollow solid. -/
def shellOutside (p : Parameters) (s : Solid) : Statement :=
  let f := p.unit.factor
  match s.kind with
  | .box => .call "cube" (equalSides (s.scale * f))
  | .sphere => sphereCall (sphereRadiusFactor * s.scale * f) p.resolution
  | .cylinder =>
    cylinderCall (cylinderRadiusFactor * s.scale * f) (cylinderHeightFactor * s.scale * f)
      p.resolution

/-- What is cut out of a hollow solid. -/
def shellInside (p : Parameters) (s : Solid) : Statement :=
  let f := p.unit.factor
  let wall := p.wallThickness
  match s.kind with
  | .box =>
    .callNext "translate" (equalSides (wall * f))
      (.call "cube" (equalSides ((s.scale - 2.0 * wall) * f)))
  | .sphere => sphereCall ((sphereRadiusFactor * s.scale - wall) * f) p.resolution
  | .cylinder =>
    cylinderCall ((cylinderRadiusFactor * s.scale - wall) * f)
      (cylinderHeightFactor * s.scale * f) p.resolution

/-- A solid as a statement. -/
def statement (p : Parameters) (s : Solid) : Statement :=
  match p.style with
  | .solid => solidStatement p.unit.factor s
  | .shell => .callBlock "difference" [] [shellOutside p s, shellInside p s]

/-- The script of some solids. -/
def write (p : Parameters) (solids : List Solid) : String :=
  String.ofList (render (solids.map (statement p)))

end SolidScene.Script
