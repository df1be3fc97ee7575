import SolidScene.Proofs.Double.Product
import SolidScene.Proofs.Double.Sign
import SolidScene.Proofs.Script.Fragments
import SolidScene.Proofs.Workspace.Settling

/-!
# The units of a script

A unit multiplies every length of a script and nothing else.  A length is the same double in all
units before it is multiplied, so two of its literals are told apart by three roundings: each is
written to the nearest hundredth, and the product is rounded once (`abs_hundredths_mul_sub_le`).
Fragment by fragment this is what tells the script of a scene from the one in millimetres
(`forall₂_fragments_unit`).
-/

namespace SolidScene

open Script Double

theorem value_million : (1e6 : Float).isFinite ∧ value 1e6 = 10 ^ 6 := by
  have hexact : ExactValue.ofFloat? 1e6 = some ⟨false, 10 ^ 6 * 2 ^ 33, -33⟩ := by decide
  refine ⟨(toRat_of_ofFloat?_eq hexact).1, (value_of_ofFloat? hexact).trans ?_⟩
  norm_num

/-- A double from minus a million up to a million. -/
theorem abs_value_le_million {x : Float} (hleast : -1e6 ≤ x) (hmost : x ≤ 1e6) :
    x.isFinite ∧ |value x| ≤ 10 ^ 6 := by
  obtain ⟨hfinite, hvalue⟩ := value_million
  obtain ⟨hnegFinite, hnegValue⟩ := neg_spec hfinite
  have hx := isFinite_of_le_of_le hnegFinite hfinite hleast hmost
  have hlow := (le_iff hnegFinite hx).1 hleast
  have hhigh := (le_iff hx hfinite).1 hmost
  rw [hnegValue, hvalue] at hlow
  rw [hvalue] at hhigh
  exact ⟨hx, abs_le.2 ⟨hlow, hhigh⟩⟩

/-- **A length in a unit** is the length in millimetres times the unit, as far as hundredths
tell. -/
theorem abs_hundredths_mul_sub_le {d : Float} {unit : LengthUnit} (hleast : -1e6 ≤ d * unit.factor)
    (hmost : d * unit.factor ≤ 1e6) :
    |(hundredths (d * LengthUnit.millimeters.factor) : ℚ) / 100 * value unit.factor -
        hundredths (d * unit.factor) / 100| ≤
      1 / 200 * value unit.factor + 1 / 200 + 1 / 10 ^ 9 := by
  obtain ⟨hscaled, habs⟩ := abs_value_le_million hleast hmost
  obtain ⟨hplain, hplainValue⟩ := mul_one_spec (isFinite_of_isFinite_mul hscaled)
  have hproduct := abs_value_mul_sub_le (isFactor_unit unit).finite hscaled
    (show -1074 ≤ (-32 : ℤ) by norm_num) (habs.trans_lt (by norm_num))
  have hwritten := abs_hundredths_sub_value_le hscaled
  have hwrittenPlain := abs_hundredths_sub_value_le hplain
  rw [hplainValue] at hwrittenPlain
  -- In millimetres the same double `d` is multiplied by one.
  change |(hundredths (d * 1.0) : ℚ) / 100 * value unit.factor - _| ≤ _
  have hunit := (isFactor_unit unit).pos
  generalize (hundredths (d * 1.0) : ℚ) / 100 = a at *
  generalize (hundredths (d * unit.factor) : ℚ) / 100 = b at *
  generalize value (d * unit.factor) = product at *
  generalize value unit.factor = f at *
  have hsplit : a * f - b = (a - value d) * f - (product - value d * f) - (b - product) := by ring
  have hmultiplied : |(a - value d) * f| ≤ 1 / 200 * f := by
    rw [abs_mul, abs_of_pos hunit]
    exact mul_le_mul_of_nonneg_right hwrittenPlain hunit.le
  have hbillionth : (2 : ℚ) ^ (-32 : ℤ) / 2 ≤ 1 / 10 ^ 9 := by norm_num
  calc |a * f - b| ≤ |(a - value d) * f| + |product - value d * f| + |b - product| := by
        rw [hsplit]
        exact (abs_sub _ _).trans (add_le_add_left (abs_sub _ _) _)
    _ ≤ 1 / 200 * f + 1 / 200 + 1 / 10 ^ 9 := by linarith

/-- **A unit scales every length of a script and nothing else.**  Every text is made of its
fragments.  Those of the script of a scene in some unit and of the one in millimetres come in pairs,
in order: the same character, the same whole number, which is a number of segments, or a length in
either script.  Two such lengths have two places, and the second is the first times the unit up to
half a hundredth for each and `1 / 10 ^ 9`.  All this holds as long as no length in the unit is
beyond a million in size, whatever the style, the wall and the number of segments. -/
theorem forall₂_fragments_unit (p : Parameters) (shapes : List Shape)
    (hlengths : ∀ s ∈ shapes, ∀ d ∈ unscaledLengths p s.toSolid,
      -1e6 ≤ d * p.unit.factor ∧ d * p.unit.factor ≤ 1e6) :
    (∀ text, (fragments text).flatMap Fragment.text = text) ∧
      List.Forall₂
        (Fragment.Matches fun a b =>
          |a * value p.unit.factor - b| ≤ 1 / 200 * value p.unit.factor + 1 / 200 + 1 / 10 ^ 9)
        (fragments (write { p with unit := .millimeters } (shapes.map Shape.toSolid)).toList)
        (fragments (write p (shapes.map Shape.toSolid)).toList) := by
  refine ⟨flatMap_text_fragments, forall₂_fragments_write fun solid hsolid d hd => ?_⟩
  obtain ⟨s, hs, rfl⟩ := List.mem_map.1 hsolid
  obtain ⟨hleast, hmost⟩ := hlengths s hs d hd
  exact abs_hundredths_mul_sub_le hleast hmost

/-- A wall thicker than the box in it, whose inside has edges below zero. -/
theorem forall₂_fragments_unit_thickWall :
    let p : Parameters := ⟨.meters, 0.35, 48, .shell⟩
    let shapes := [⟨.box, 0.37⟩, ⟨.sphere, 2.5⟩, ⟨.cylinder, 7.13⟩, ⟨.box, 0.7⟩].map Shape.atOrigin
    (∀ s ∈ shapes, ∀ d ∈ unscaledLengths p s.toSolid,
      -1e6 ≤ d * p.unit.factor ∧ d * p.unit.factor ≤ 1e6) ∧
      List.Forall₂
        (Fragment.Matches fun a b =>
          |a * value p.unit.factor - b| ≤ 1 / 200 * value p.unit.factor + 1 / 200 + 1 / 10 ^ 9)
        (fragments (write { p with unit := .millimeters } (shapes.map Shape.toSolid)).toList)
        (fragments (write p (shapes.map Shape.toSolid)).toList) := by
  intro p shapes
  have hlengths : ∀ s ∈ shapes, ∀ d ∈ unscaledLengths p s.toSolid,
      -1e6 ≤ d * p.unit.factor ∧ d * p.unit.factor ≤ 1e6 := by decide +kernel
  exact ⟨hlengths, (forall₂_fragments_unit p shapes hlengths).2⟩

end SolidScene
