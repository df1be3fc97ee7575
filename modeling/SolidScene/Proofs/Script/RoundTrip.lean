import Mathlib.Data.List.Basic
import SolidScene.Proofs.Script.Denotation
import SolidScene.Proofs.Script.Rendering
import SolidScene.Script.Writer

/-!
# Writing a scene and reading it back

A scene is written as one statement to a solid, and of each statement one literal decides what is
read back: the edge of a box, the radius of a sphere or a cylinder, in a hollow shape that of the
outside.  `read_write` says that reading the script of a scene gives, in order, each solid with the
scale that this literal stands for, unless that scale is not finite and above zero.
-/

namespace SolidScene.Script

/-! ### Literals -/

/-- The literal of a length in a script. -/
def lengthText (x : Float) : List Char := (lengthValue x).render

theorem exponent_ofHundredths_le (n : Nat) : (Decimal.ofHundredths n).exponent ≤ 0 := by
  simp [Decimal.ofHundredths]

theorem readMagnitude?_text {d : Decimal} (h : d.exponent ≤ 0) :
    readMagnitude? d.text = some d.toFloat := by
  rw [readMagnitude?, Decimal.read?_text h]

/-- A literal reads back as the double that its value stands for in a script. -/
theorem readFloat?_render {negative : Bool} {d : Decimal} (h : d.exponent ≤ 0) :
    readFloat? (Value.number negative d).render = (Value.number negative d).toFloat? := by
  cases negative with
  | true => simp [Value.render, Value.toFloat?, readFloat?, readMagnitude?_text h]
  | false =>
    have hhead : ∀ c ∈ d.text.head?, c.isDigit := by
      obtain ⟨c, cs, hcs, hc⟩ := d.head?_text
      simpa [hcs] using hc
    simp [Value.render, Value.toFloat?, readFloat?_of_isDigit hhead, readMagnitude?_text h]

/-- The double that the literal of a length reads back as.  The value of a length is a number, so
the default is never taken. -/
def readBack (x : Float) : Float := (lengthValue x).toFloat?.getD 0

theorem readFloat?_lengthText (x : Float) : readFloat? (lengthText x) = some (readBack x) := by
  rw [lengthText, lengthValue, Value.ofHundredths, readFloat?_render (exponent_ofHundredths_le _)]
  rfl

/-! ### The statement of a solid -/

/-- The length that the statement of a solid leads with: the edge of a box, the radius of the
others, multiplied by `factor`. -/
def leadingLength (factor : Float) (s : Solid) : Float :=
  match s.kind with
  | .box => s.scale * factor
  | .sphere => sphereRadiusFactor * s.scale * factor
  | .cylinder => cylinderRadiusFactor * s.scale * factor

/-- The solid that a length, divided by `factor`, gives, if its scale is finite and above zero. -/
def solidOfLength? (factor : Float) (kind : Kind) (length : Float) : Option Solid :=
  let scale := scaleOfLength kind length / factor
  if Solid.validScale scale then some ⟨kind, scale⟩ else none

/-- The solid that the literal of a length gives. -/
def solidOfLiteral? (factor : Float) (s : Solid) : Option Solid :=
  (lengthValue (leadingLength factor s)).toFloat?.bind (solidOfLength? factor s.kind)

section Lengths

variable (x : Float) (rest : List Argument)

theorem length?_equalSides : length? .box (equalSides x) = (lengthValue x).toFloat? := by
  simp [length?, boxEdge?, equalSides, namedValue?, positional?, edgeOfValue?]

theorem length?_sphere :
    length? .sphere (named "r" (lengthValue x) :: rest) = (lengthValue x).toFloat? := by
  simp [length?, sphereRadius?, namedNumber?, namedValue?, named, lengthValue,
    Value.ofHundredths, Value.toFloat?]

theorem length?_cylinder :
    length? .cylinder (named "r" (lengthValue x) :: rest) = (lengthValue x).toFloat? := by
  simp [length?, cylinderRadius?, namedNumber?, namedValue?, named, lengthValue,
    Value.ofHundredths, Value.toFloat?]

end Lengths

/-- A statement is a call that gives the solid of the literal it leads with. -/
def LeadsWith (factor : Float) (s : Solid) (written : Statement) : Prop :=
  ∃ name arguments, written = .call name arguments ∧ kindOfCall? name = some s.kind ∧
    length? s.kind arguments = (lengthValue (leadingLength factor s)).toFloat?

theorem leadsWith_solidStatement (factor : Float) (s : Solid) :
    LeadsWith factor s (solidStatement factor s) := by
  obtain ⟨kind, scale⟩ := s
  cases kind with
  | box => exact ⟨_, _, rfl, rfl, length?_equalSides _⟩
  | sphere => exact ⟨_, _, rfl, rfl, length?_sphere _ _⟩
  | cylinder => exact ⟨_, _, rfl, rfl, length?_cylinder _ _⟩

theorem leadsWith_shellOutside (p : Parameters) (s : Solid) :
    LeadsWith p.unit.factor s (shellOutside p s) := by
  obtain ⟨kind, scale⟩ := s
  cases kind with
  | box => exact ⟨_, _, rfl, rfl, length?_equalSides _⟩
  | sphere => exact ⟨_, _, rfl, rfl, length?_sphere _ _⟩
  | cylinder => exact ⟨_, _, rfl, rfl, length?_cylinder _ _⟩

theorem LeadsWith.contributions {factor : Float} {s : Solid} {written : Statement}
    (h : LeadsWith factor s written) :
    written.contributions factor = [(solidOfLiteral? factor s).toList] := by
  obtain ⟨name, arguments, rfl, hname, hlength⟩ := h
  rw [Statement.contributions, contribution, hname]
  simp only [solid?, hlength]
  rfl

/-- The statement of a solid denotes the solid of the literal that it, or its outside, leads with:
a difference takes the first solid of its first child. -/
theorem contributions_statement (p : Parameters) (s : Solid) :
    (statement p s).contributions p.unit.factor = [(solidOfLiteral? p.unit.factor s).toList] := by
  rw [statement]
  cases p.style with
  | solid => exact (leadsWith_solidStatement p.unit.factor s).contributions
  | shell =>
    -- What is cut out is the second child, and a difference drops it.
    have houtside := (leadsWith_shellOutside p s).contributions
    have htake : (solidOfLiteral? p.unit.factor s).toList.take 1 =
        (solidOfLiteral? p.unit.factor s).toList := by
      cases solidOfLiteral? p.unit.factor s <;> rfl
    simp [Statement.contributions, contributionsOf, houtside, contribution, kindOfCall?, htake]

theorem denotedSolids_map_statement (p : Parameters) (solids : List Solid) :
    denotedSolids p.unit.factor (solids.map (statement p)) =
      solids.filterMap (solidOfLiteral? p.unit.factor) := by
  induction solids with
  | nil => rfl
  | cons s rest ih =>
    rw [denotedSolids] at ih
    rw [denotedSolids, List.map_cons, contributionsOf, contributions_statement, List.flatten_append,
      ih, List.filterMap_cons]
    cases solidOfLiteral? p.unit.factor s <;> rfl

/-! ### The script of a scene -/

theorem depth_statement_le (p : Parameters) (s : Solid) : (statement p s).depth ≤ 3 := by
  obtain ⟨kind, scale⟩ := s
  unfold statement
  cases p.style <;> cases kind <;> exact Nat.le_of_ble_eq_true rfl

theorem writable_lengthValue (x : Float) : Writable (lengthValue x).tokens := by
  have hexponent := exponent_ofHundredths_le (hundredths x).natAbs
  rw [lengthValue, Value.ofHundredths, Value.tokens]
  split <;> simp [Token.isWritable, hexponent]

theorem writable_ofNat (n : Nat) : Writable (Value.ofNat n).tokens := by
  simp [Value.ofNat, Value.tokens, Token.isWritable]

theorem writable_statement (p : Parameters) (s : Solid) : Writable (statement p s).tokens := by
  have hlength := writable_lengthValue
  have hnat := writable_ofNat
  obtain ⟨kind, scale⟩ := s
  unfold statement
  cases p.style <;> cases kind <;>
    simp +decide [solidStatement, shellOutside, shellInside, sphereCall, cylinderCall, equalSides,
      named, Statement.tokens, callTokens, Argument.tokens, Value.tokens, itemTokens,
      hlength, hnat]

/-- The script of some solids says the solids of the literals that their statements lead with. -/
theorem read_write_eq_filterMap (p : Parameters) (solids : List Solid) :
    read p.unit (write p solids) = solids.filterMap (solidOfLiteral? p.unit.factor) := by
  have hdepth : depthOf (solids.map (statement p)) ≤ deepest := by
    refine depthOf_le fun s hs => ?_
    obtain ⟨solid, -, rfl⟩ := List.mem_map.1 hs
    exact Nat.le_trans (depth_statement_le p solid) (by decide)
  have hwritable : ∀ s ∈ solids.map (statement p), Writable s.tokens := by
    intro s hs
    obtain ⟨solid, -, rfl⟩ := List.mem_map.1 hs
    exact writable_statement p solid
  rw [read, write, String.toList_ofList, parse_render hdepth hwritable, flatMap_solids_nodesOf,
    denotedSolids_map_statement]

/-- **A scene that is written and read back gives, in order, the solids that its literals say.**
Every literal reads back as a double.  Of a shape only the kind and the scale matter, and of the
parameters only the unit: the edge of a box, or the radius of another shape, is read back from its
literal, a radius divided by the radius at scale one, and either then by the factor of the unit.
The shape is kept with this scale if it is finite and above zero. -/
theorem read_write :
    ∃ readBack : Float → Float, (∀ x, readFloat? (lengthText x) = some (readBack x)) ∧
      ∀ (p : Parameters) (shapes : List Shape),
        read p.unit (write p (shapes.map Shape.toSolid)) =
          shapes.filterMap fun s =>
            let factor := p.unit.factor
            let scale := match s.kind with
              | .box => readBack (s.scale * factor) / factor
              | .sphere => readBack (0.7 * s.scale * factor) / 0.7 / factor
              | .cylinder => readBack (0.5 * s.scale * factor) / 0.5 / factor
            if Solid.validScale scale then some ⟨s.kind, scale⟩ else none := by
  refine ⟨readBack, readFloat?_lengthText, fun p shapes => ?_⟩
  rw [read_write_eq_filterMap, List.filterMap_map]
  refine List.filterMap_congr fun s _ => ?_
  obtain ⟨⟨kind, scale⟩, position, color⟩ := s
  cases kind <;> rfl

end SolidScene.Script
