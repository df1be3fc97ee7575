import SolidScene.Proofs.Double.Multiple
import SolidScene.Proofs.Double.SquareRoot
import SolidScene.Proofs.Mesh.Extents
import SolidScene.Proofs.Mesh.Surface
import SolidScene.Stl.Export

/-!
# The normals of a box

The corners of a box differ along each axis by its edge or not at all, so all that is worked out
from them on the way to a normal is a small multiple of one number: of the edge, then of its rounded
square, then of the rounded square of that (`IsMultiple`).  The multiples follow the cross products
of corners with coordinates zero and one, which are counted out once (`forall₂_isOn`).

The length of a cross product has to be above `2 ^ (-52)` to count, and its square has to be in
range.  A box meets both between `2 ^ (-26)` and `2 ^ 256`, where its normals are exact; beyond,
none of them has a direction (`normals_of_box`).
-/

namespace SolidScene

open Double

/-! ### Sides -/

namespace Axis

/-- The axis that follows, the last one being followed by the first. -/
def next : Axis → Axis
  | x => y
  | y => z
  | z => x

end Axis

namespace Vec3

/-- Whether two vectors are the same but for the sign of zeros. -/
def Same (p q : Vec3) : Prop := ∀ i, p.coord i == q.coord i

/-- Whether a vector has no direction: each coordinate is a zero or not finite. -/
def HasNoDirection (p : Vec3) : Prop := ∀ i, p.coord i == 0.0 ∨ ¬ (p.coord i).isFinite

instance (p q : Vec3) : Decidable (p.Same q) := inferInstanceAs (Decidable (∀ _, _))

instance (p : Vec3) : Decidable p.HasNoDirection := inferInstanceAs (Decidable (∀ _, _))

theorem coord_cross (u v : Vec3) (i : Axis) : (u.cross v).coord i =
    u.coord i.next * v.coord i.next.next - u.coord i.next.next * v.coord i.next := by
  cases i <;> rfl

theorem coord_divide (u : Vec3) (d : Float) (i : Axis) : (u.divide d).coord i = u.coord i / d := by
  cases i <;> rfl

end Vec3

/-- A side of a box: across an axis, at its lower or at its upper end. -/
structure Side where
  axis : Axis
  isUpper : Bool
  deriving DecidableEq, Repr

namespace Side

/-- The unit vector that points out of the box. -/
def outward (d : Side) : Vec3 :=
  let unit : Float := if d.isUpper then 1.0 else -1.0
  match d.axis with
  | .x => ⟨unit, 0.0, 0.0⟩
  | .y => ⟨0.0, unit, 0.0⟩
  | .z => ⟨0.0, 0.0, unit⟩

/-- Where the side is along its axis. -/
def level (d : Side) (b : Bounds) : Float :=
  if d.isUpper then b.max.coord d.axis else b.min.coord d.axis

/-- The coordinates of the unit vector. -/
def sign (d : Side) (i : Axis) : ℤ := if i = d.axis then if d.isUpper then 1 else -1 else 0

theorem abs_sign_le (d : Side) (i : Axis) : |d.sign i| ≤ 1 := by
  rw [sign]
  split
  · split <;> decide
  · decide

theorem sign_mul_sign_axis (d : Side) : d.sign d.axis * d.sign d.axis = 1 := by
  obtain ⟨axis, isUpper⟩ := d
  cases axis <;> cases isUpper <;> decide

theorem sum_sign_mul_sign (d : Side) :
    |d.sign .x * d.sign .x + d.sign .y * d.sign .y| ≤ 1 ∧
      d.sign .x * d.sign .x + d.sign .y * d.sign .y + d.sign .z * d.sign .z = 1 := by
  obtain ⟨axis, isUpper⟩ := d
  cases axis <;> cases isUpper <;> decide

theorem coord_outward (d : Side) (i : Axis) :
    d.outward.coord i = if i = d.axis then if d.isUpper then 1.0 else -1.0 else 0.0 := by
  obtain ⟨axis, isUpper⟩ := d
  cases axis <;> cases i <;> rfl

theorem isMultiple_outward (d : Side) (i : Axis) : IsMultiple 1 (d.sign i) (d.outward.coord i) := by
  have hneg : (-1.0 : Float).isFinite ∧ value (-1.0) = -1 := by decide +kernel
  rw [coord_outward, sign]
  split
  · split
    · exact ⟨one_spec.1, one_spec.2.trans (by norm_num)⟩
    · exact ⟨hneg.1, hneg.2.trans (by norm_num)⟩
  · exact ⟨isFinite_zero, value_zero.trans (by norm_num)⟩

end Side

/-! ### From edges to a cross product -/

/-- Three corners whose differences are multiples of an edge and that go round a side of a box,
counter-clockwise seen from outside. -/
structure GoesRound (a b c : Vec3) (e : ℚ) (k l : Axis → ℤ) (d : Side) : Prop where
  first : ∀ i, IsMultiple e (k i) ((b - a).coord i)
  second : ∀ i, IsMultiple e (l i) ((c - a).coord i)
  abs_mul_le : ∀ i j, |k i * l j| ≤ 1
  cross_eq : ∀ i, k i.next * l i.next.next - k i.next.next * l i.next = d.sign i

section Cross

variable {a b c : Vec3} {e : ℚ} {k l : Axis → ℤ} {d : Side}

/-- The cross product of two edges, where it is finite. -/
theorem GoesRound.cross_of_isFinite (h : GoesRound a b c e k l d) (i : Axis)
    (hfinite : (((b - a).cross (c - a)).coord i).isFinite) :
    IsMultiple (nearest (e * e)) (d.sign i) (((b - a).cross (c - a)).coord i) := by
  rw [Vec3.coord_cross] at hfinite ⊢
  obtain ⟨hleft, hright⟩ := isFinite_of_isFinite_sub hfinite
  rw [← h.cross_eq]
  exact ((h.first _).mul_of_isFinite (h.second _) (h.abs_mul_le _ _) hleft).sub_of_isFinite
    ((h.first _).mul_of_isFinite (h.second _) (h.abs_mul_le _ _) hright)
    (h.cross_eq i ▸ d.abs_sign_le i) (nearest_nearest _) hfinite

/-- The cross product of two edges, where it is in range. -/
theorem GoesRound.cross (h : GoesRound a b c e k l d) (hrange : |nearest (e * e)| < 2 ^ (1024 : ℤ))
    (i : Axis) : IsMultiple (nearest (e * e)) (d.sign i) (((b - a).cross (c - a)).coord i) := by
  rw [Vec3.coord_cross, ← h.cross_eq]
  exact ((h.first _).mul (h.second _) (h.abs_mul_le _ _) hrange).sub
    ((h.first _).mul (h.second _) (h.abs_mul_le _ _) hrange)
    (h.cross_eq i ▸ d.abs_sign_le i) (nearest_nearest _) hrange

end Cross

/-! ### Lengths -/

section Length

variable {p : ℚ} {n : Vec3} {d : Side}

/-- The length of a multiple of the unit vector of a side, where its square is in range. -/
theorem length_spec (hn : ∀ i, IsMultiple p (d.sign i) (n.coord i))
    (hrange : nearest (p * p) < 2 ^ (1024 : ℤ)) :
    n.length.isFinite ∧ IsRoundedRoot (nearest (p * p)) (value n.length) := by
  have hnonneg := nearest_nonneg (mul_self_nonneg p)
  have habs : |nearest (p * p)| < 2 ^ (1024 : ℤ) := (abs_of_nonneg hnonneg).trans_lt hrange
  have hsquare i :
      IsMultiple (nearest (p * p)) (d.sign i * d.sign i) (n.coord i * n.coord i) :=
    (hn i).mul (hn i) (abs_mul_le_one (d.abs_sign_le i) (d.abs_sign_le i)) habs
  obtain ⟨hpartial, htotal⟩ := d.sum_sign_mul_sign
  have hsum := ((hsquare .x).add (hsquare .y) hpartial (nearest_nearest _) habs).add (hsquare .z)
    (by rw [htotal]; decide) (nearest_nearest _) habs
  rw [htotal] at hsum
  have hvalue : value (n.x * n.x + n.y * n.y + n.z * n.z) = nearest (p * p) := by
    rw [← one_mul (nearest (p * p)), ← Int.cast_one]
    exact hsum.value_eq
  rw [← hvalue] at hnonneg ⊢
  exact sqrt_spec hsum.finite hnonneg

/-- A finite length has finite squares. -/
theorem isFinite_square_of_length (h : n.length.isFinite) (i : Axis) :
    (n.coord i * n.coord i).isFinite := by
  obtain ⟨hxy, hz⟩ := isFinite_of_isFinite_add (isFinite_of_isFinite_sqrt h)
  obtain ⟨hx, hy⟩ := isFinite_of_isFinite_add hxy
  cases i with
  | x => exact hx
  | y => exact hy
  | z => exact hz

/-- Where the length is finite, its square is in range. -/
theorem nearest_square_lt_of_length
    (hn : ∀ i, (n.coord i).isFinite → IsMultiple p (d.sign i) (n.coord i))
    (h : n.length.isFinite) : nearest (p * p) < 2 ^ (1024 : ℤ) := by
  have hsquare := isFinite_square_of_length h d.axis
  have haxis := hn d.axis (isFinite_of_isFinite_mul hsquare)
  have hvalue :=
    (haxis.mul_of_isFinite haxis (by rw [d.sign_mul_sign_axis]; decide) hsquare).value_eq
  rw [d.sign_mul_sign_axis, Int.cast_one, one_mul] at hvalue
  exact hvalue ▸ (le_abs_self _).trans_lt (abs_value_lt _)

theorem lt_two_zpow_of_nearest_square_lt (h : nearest (p * p) < 2 ^ (1024 : ℤ)) :
    |p| < 2 ^ (1024 : ℤ) := by
  by_contra hge
  have hone : (1 : ℚ) ≤ 2 ^ (1024 : ℤ) := one_le_zpow₀ one_le_two (by norm_num)
  have hsquare : (2 : ℚ) ^ (1024 : ℤ) ≤ p * p := by
    rw [← abs_mul_abs_self]
    exact (not_lt.1 hge).trans (le_mul_of_one_le_right (abs_nonneg p) (hone.trans (not_lt.1 hge)))
  exact h.not_ge (two_zpow_le_nearest_of_le (by norm_num) hsquare)

end Length

/-! ### The three ranges -/

namespace Stl

theorem value_flatness : flatness.isFinite ∧ value flatness = 2 ^ (-52 : ℤ) := by decide +kernel

end Stl

namespace GoesRound

open Stl (unitNormal flatness value_flatness)

variable {a b c : Vec3} {e : ℚ} {k l : Axis → ℤ} {d : Side}

/-- A small side has the zero normal. -/
theorem unitNormal_eq_zero (h : GoesRound a b c e k l d)
    (hsmall : nearest (e * e) ≤ 2 ^ (-52 : ℤ)) :
    unitNormal a b c = .zero := by
  have hnonneg := nearest_nonneg (mul_self_nonneg e)
  have hsquare := nearest_square_le_two_zpow hnonneg (by norm_num) hsmall
  have hrange := hsquare.trans_lt (two_zpow_lt (show (-52 + -52 : ℤ) < 1024 by norm_num))
  obtain ⟨hfinite, hroot⟩ :=
    length_spec (h.cross (lt_two_zpow_of_nearest_square_lt hrange)) hrange
  have hflat : ((b - a).cross (c - a)).length ≤ flatness := by
    rw [le_iff hfinite value_flatness.1, value_flatness.2]
    exact hroot.le_two_zpow (by norm_num) hsquare
  exact if_pos hflat

/-- A side that is neither too small nor too large has the unit vector that points out. -/
theorem unitNormal_same (h : GoesRound a b c e k l d) (hlow : 2 ^ (-52 : ℤ) < nearest (e * e))
    (hrange : nearest (nearest (e * e) * nearest (e * e)) < 2 ^ (1024 : ℤ)) :
    (unitNormal a b c).Same d.outward := by
  have hn := h.cross (lt_two_zpow_of_nearest_square_lt hrange)
  obtain ⟨hfinite, hroot⟩ := length_spec hn hrange
  have hlength := hroot.eq_of_square (nearest_nearest _)
    ((two_zpow_le (by norm_num)).trans hlow.le)
  have hflat : ¬ ((b - a).cross (c - a)).length ≤ flatness := by
    rw [le_iff hfinite value_flatness.1, value_flatness.2, hlength]
    exact not_le.2 hlow
  have hnormal : unitNormal a b c = ((b - a).cross (c - a)).divide ((b - a).cross (c - a)).length :=
    if_neg hflat
  intro i
  have hquotient := (hn i).div ⟨hfinite, by rw [hlength, Int.cast_one, one_mul]⟩ (d.abs_sign_le i)
    ((two_zpow_pos _).trans hlow).ne'
  have houtward := d.isMultiple_outward i
  rw [hnormal, Vec3.coord_divide, beq_iff hquotient.finite houtward.finite, hquotient.value_eq,
    houtward.value_eq]

/-- A side that is too large has no normal with a direction. -/
theorem unitNormal_hasNoDirection (h : GoesRound a b c e k l d)
    (hrange : 2 ^ (1024 : ℤ) ≤ nearest (nearest (e * e) * nearest (e * e))) :
    (unitNormal a b c).HasNoDirection := by
  have hinfinite : ¬ ((b - a).cross (c - a)).length.isFinite := fun hfinite =>
    (nearest_square_lt_of_length h.cross_of_isFinite hfinite).not_ge hrange
  intro i
  rw [unitNormal]
  split
  · exact .inl (by cases i <;> decide)
  · rw [Vec3.coord_divide, or_iff_not_imp_right, not_not]
    intro hquotient
    rw [beq_iff hquotient isFinite_zero, value_zero]
    exact value_div_eq_zero hinfinite hquotient

end GoesRound

/-- **The normal of a side of a box** is the unit vector that points out, if the scale is neither
too small nor too large; otherwise it has no direction. -/
theorem GoesRound.unitNormal_spec {a b c : Vec3} {k l : Axis → ℤ} {d : Side} {x : Float}
    (hscale : Solid.validScale x) (h : GoesRound a b c (2 * value (x * 0.5)) k l d) :
    if 2 ^ (-26 : ℤ) < value x ∧ value x < 2 ^ (256 : ℤ) then (Stl.unitNormal a b c).Same d.outward
    else (Stl.unitNormal a b c).HasNoDirection := by
  obtain ⟨hx, hpos⟩ := validScale_iff.1 hscale
  obtain ⟨-, hnonneg, hedge⟩ := half_spec hscale
  have hgrid := nearest_value hx
  -- Only scales far below the lower end have an edge other than themselves.
  have hsame (hlow : 2 ^ (-26 : ℤ) < value x) : 2 * value (x * 0.5) = value x :=
    hedge.resolve_right fun hsmall => (hsmall.1.trans (two_zpow_lt (by norm_num))).not_gt hlow
  split
  · next hrange =>
    have hsquare := two_zpow_lt_nearest_square hgrid (by norm_num) hrange.1
    rw [show (-26 + -26 : ℤ) = -52 by norm_num] at hsquare
    rw [hsame hrange.1] at h
    exact h.unitNormal_same hsquare (nearest_fourth_power_lt hgrid hpos.le hrange.2)
  · next hrange =>
    rcases le_or_gt (value x) (2 ^ (-26 : ℤ)) with hlow | hlow
    · have hle : 2 * value (x * 0.5) ≤ 2 ^ (-26 : ℤ) := by
        rcases hedge with hsame | ⟨-, hsmall⟩
        · exact hsame ▸ hlow
        · exact hsmall.trans (two_zpow_le (by norm_num))
      have hsquare := nearest_square_le_two_zpow (mul_nonneg two_pos.le hnonneg) (by norm_num) hle
      rw [show (-26 + -26 : ℤ) = -52 by norm_num] at hsquare
      rw [h.unitNormal_eq_zero hsquare]
      exact fun i => .inl (by cases i <;> decide)
    · have hhigh : 2 ^ (256 : ℤ) ≤ value x := not_lt.1 fun hlt => hrange ⟨hlow, hlt⟩
      have hfourth := two_zpow_le_nearest_square (by norm_num)
        (two_zpow_le_nearest_square (by norm_num) hhigh)
      rw [show (256 + 256 + (256 + 256) : ℤ) = 1024 by norm_num] at hfourth
      rw [hsame hlow] at h
      exact h.unitNormal_hasNoDirection hfourth

/-! ### The triangles of a box -/

/-- The coordinates of the corners of the box between zero and one. -/
def unitCorner (i : ℕ) (a : Axis) : ℤ := if i.testBit a.bit then 1 else 0

theorem abs_unitCorner_sub_le (i j : ℕ) (a : Axis) : |unitCorner j a - unitCorner i a| ≤ 1 := by
  rw [unitCorner, unitCorner]
  split <;> split <;> decide

namespace Face

/-- The way from the first corner to the second. -/
def first (f : Face ℕ) (a : Axis) : ℤ := unitCorner f.b a - unitCorner f.a a

/-- The way from the first corner to the third. -/
def second (f : Face ℕ) (a : Axis) : ℤ := unitCorner f.c a - unitCorner f.a a

/-- Whether a triangle between corners of the box between zero and one lies on a side, and goes
round it counter-clockwise seen from outside. -/
def IsOn (f : Face ℕ) (d : Side) : Prop :=
  (∀ i ∈ f.corners, i < 8 ∧ i.testBit d.axis.bit = d.isUpper) ∧
    ∀ a : Axis, f.first a.next * f.second a.next.next - f.first a.next.next * f.second a.next =
      d.sign a

instance (f : Face ℕ) (d : Side) : Decidable (f.IsOn d) :=
  inferInstanceAs (Decidable (_ ∧ ∀ _ : Axis, _ = _))

end Face

/-- The sides on which the triangles of a box lie, two on each. -/
def boxSides : List Side :=
  [Axis.x, .y, .z].flatMap fun a => [⟨a, false⟩, ⟨a, false⟩, ⟨a, true⟩, ⟨a, true⟩]

theorem forall₂_isOn : List.Forall₂ (fun d t => (Triangle.face t).IsOn d) boxSides
    Mesh.boxTriangles := by
  decide

/-! ### The corners of a box -/

section Corners

variable {p : Vec3} {h : Float} {i : ℕ}

theorem Vec3.isMultiple_of_isOrigin (hp : p.isOrigin) (q : ℚ) (a : Axis) :
    IsMultiple q 0 (p.coord a) := by
  have hzero : p.coord a == 0.0 := by
    rw [isOrigin, Bool.and_eq_true, Bool.and_eq_true] at hp
    cases a with
    | x => exact hp.1.1
    | y => exact hp.1.2
    | z => exact hp.2
  obtain ⟨hle, hge⟩ := float_le_of_beq hzero
  have hfinite := isFinite_of_le_of_le isFinite_zero isFinite_zero hge hle
  rw [beq_iff hfinite isFinite_zero, value_zero] at hzero
  exact ⟨hfinite, by rw [hzero, Int.cast_zero, zero_mul]⟩

theorem isMultiple_corner (hp : p.isOrigin) (hh : h.isFinite) (i : ℕ) (a : Axis) :
    IsMultiple (value h) (2 * unitCorner i a - 1) ((p + Mesh.boxCorner h i).coord a) := by
  have horigin := Vec3.isMultiple_of_isOrigin hp (value h) a
  obtain ⟨hneg, hvalue⟩ := neg_spec hh
  rw [Vec3.coord_add, Mesh.coord_boxCorner, unitCorner]
  split
  · exact horigin.add ⟨hh, by rw [Int.cast_one, one_mul]⟩ (by decide) (nearest_value hh)
      (abs_value_lt h)
  · exact horigin.add (l := -1) ⟨hneg, by rw [hvalue, Int.cast_neg, Int.cast_one, neg_one_mul]⟩
      (by decide) (nearest_value hh) (abs_value_lt h)

/-- Two corners differ along an axis by the double of the half edge or not at all. -/
theorem isMultiple_corner_sub (hp : p.isOrigin) (hh : h.isFinite)
    (hrange : |2 * value h| < 2 ^ (1024 : ℤ)) (i j : ℕ) (a : Axis) :
    IsMultiple (2 * value h) (unitCorner j a - unitCorner i a)
      ((p + Mesh.boxCorner h j - (p + Mesh.boxCorner h i)).coord a) := by
  have hi := isMultiple_corner hp hh i a
  have hj := isMultiple_corner hp hh j a
  have hunit := abs_unitCorner_sub_le i j a
  -- Both stand at an odd multiple of the half edge, so the edge divides what is between them.
  have hdifference : nearest (value ((p + Mesh.boxCorner h j).coord a) -
      value ((p + Mesh.boxCorner h i).coord a)) =
      ((unitCorner j a - unitCorner i a : ℤ) : ℚ) * (2 * value h) := by
    rw [← nearest_two_mul (nearest_value hh), ← nearest_intCast_mul hunit, hi.value_eq, hj.value_eq]
    congr 1
    push_cast
    ring
  rw [Vec3.coord_sub]
  obtain ⟨hfinite, hvalue⟩ := sub_spec hj.finite hi.finite
    (hdifference ▸ abs_intCast_mul_lt hunit hrange)
  exact ⟨hfinite, hvalue.trans hdifference⟩

theorem Face.IsOn.goesRound {f : Face ℕ} {d : Side} (hon : f.IsOn d) (hp : p.isOrigin)
    (hh : h.isFinite) (hrange : |2 * value h| < 2 ^ (1024 : ℤ)) :
    GoesRound (p + Mesh.boxCorner h f.a) (p + Mesh.boxCorner h f.b) (p + Mesh.boxCorner h f.c)
      (2 * value h) f.first f.second d where
  first := isMultiple_corner_sub hp hh hrange f.a f.b
  second := isMultiple_corner_sub hp hh hrange f.a f.c
  abs_mul_le i j := abs_mul_le_one (abs_unitCorner_sub_le _ _ i) (abs_unitCorner_sub_le _ _ j)
  cross_eq := hon.2

/-- A corner lies where its side is. -/
theorem coord_corner_eq_level {d : Side} (p : Vec3) (h : Float)
    (hi : i.testBit d.axis.bit = d.isUpper) :
    (p + Mesh.boxCorner h i).coord d.axis = d.level (.around p ⟨h, h, h⟩) := by
  have hhalf (a : Axis) : (⟨h, h, h⟩ : Vec3).coord a = h := by cases a <;> rfl
  rw [Vec3.coord_add, Mesh.coord_boxCorner, hi, Side.level, Bounds.around, Vec3.coord_add,
    Vec3.coord_sub, hhalf, float_sub_eq_add_neg]
  split <;> rfl

theorem Mesh.corner_box {center : Vec3} {edge : Float} {i : UInt32} (hi : i.toNat < 8) :
    (box center edge).corner i = center + boxCorner (edge * 0.5) i.toNat := by
  rw [corner, box, around, Array.getD_eq_getD_getElem?, List.getElem?_toArray, List.getElem?_map,
    List.getElem?_map, List.getElem?_range hi]
  rfl

end Corners

/-! ### The facets of a box -/

namespace Stl

/-- Whether the corners of a facet lie on a side of a box. -/
def Facet.LiesOn (f : Facet) (d : Side) (b : Bounds) : Prop :=
  ∀ p ∈ [f.a, f.b, f.c], p.coord d.axis = d.level b

/-- **The normals of a box** at the origin: each of its twelve facets lies on its side, and if the
scale is above `2 ^ (-26)` and below `2 ^ 256` its normal is the unit vector that points out.  At
all other scales none of the normals has a direction. -/
theorem normals_of_box [Trigonometry] (segments : UInt32) {s : Shape} (hbox : s.kind = .box)
    (horigin : s.position.isOrigin) (hscale : Solid.validScale s.scale) :
    List.Forall₂ (fun d f => f.LiesOn d s.bounds ∧
        if 2 ^ (-26 : ℤ) < value s.scale ∧ value s.scale < 2 ^ (256 : ℤ) then
          f.normal.Same d.outward
        else f.normal.HasNoDirection)
      boxSides (facets (s.mesh segments)) := by
  obtain ⟨⟨kind, scale⟩, position, color⟩ := s
  change kind = .box at hbox
  subst hbox
  change List.Forall₂ _ boxSides (Mesh.boxTriangles.map (facet (.box position scale)))
  rw [List.forall₂_map_right_iff]
  refine forall₂_isOn.imp fun d t hon => ?_
  have hcorner {i : UInt32} (hi : i.toNat ∈ t.face.corners) :
      (Mesh.box position scale).corner i = position + Mesh.boxCorner (scale * 0.5) i.toNat :=
    Mesh.corner_box (hon.1 _ hi).1
  have hlevel {i : ℕ} (hi : i ∈ t.face.corners) :
      (position + Mesh.boxCorner (scale * 0.5) i).coord d.axis =
        d.level (.around position ⟨scale * 0.5, scale * 0.5, scale * 0.5⟩) :=
    coord_corner_eq_level _ _ (hon.1 i hi).2
  have ha : t.a.toNat ∈ t.face.corners := by simp [Triangle.face, Face.corners]
  have hb : t.b.toNat ∈ t.face.corners := by simp [Triangle.face, Face.corners]
  have hc : t.c.toNat ∈ t.face.corners := by simp [Triangle.face, Face.corners]
  rw [facet, hcorner ha, hcorner hb, hcorner hc]
  constructor
  · intro p hp
    simp only [Facet.ofCorners, List.mem_cons, List.not_mem_nil, or_false] at hp
    rcases hp with rfl | rfl | rfl
    · exact hlevel ha
    · exact hlevel hb
    · exact hlevel hc
  · exact (hon.goesRound horigin (half_spec hscale).1
      (abs_two_mul_half_lt hscale)).unitNormal_spec hscale

/-- The box of a scale, at the origin. -/
def boxOfScale (scale : Float) : Shape := .atOrigin ⟨.box, scale⟩

/-- A scale in between, at which every normal is the unit vector, and one above, at which none
is. -/
theorem normals_of_box_one :
    (Solid.validScale 1.0 ∧ Solid.validScale 1e100 ∧ Vec3.zero.isOrigin) ∧
      List.Forall₂ (fun d f => f.LiesOn d (boxOfScale 1.0).bounds ∧ f.normal.Same d.outward)
        boxSides (facets ((boxOfScale 1.0).mesh defaultSegments)) ∧
      List.Forall₂ (fun d f => f.LiesOn d (boxOfScale 1e100).bounds ∧ f.normal.HasNoDirection)
        boxSides (facets ((boxOfScale 1e100).mesh defaultSegments)) := by
  have hscales : Solid.validScale 1.0 ∧ Solid.validScale 1e100 ∧ Vec3.zero.isOrigin := by
    decide +kernel
  have hone : 2 ^ (-26 : ℤ) < value 1.0 ∧ value 1.0 < 2 ^ (256 : ℤ) := by decide +kernel
  have hlarge : ¬ (2 ^ (-26 : ℤ) < value 1e100 ∧ value 1e100 < 2 ^ (256 : ℤ)) := by decide +kernel
  have hordinary := normals_of_box defaultSegments (s := boxOfScale 1.0) rfl hscales.2.2 hscales.1
  have hextreme := normals_of_box defaultSegments (s := boxOfScale 1e100) rfl hscales.2.2
    hscales.2.1
  exact ⟨hscales, hordinary.imp fun d f h => ⟨h.1, (if_pos hone).mp h.2⟩,
    hextreme.imp fun d f h => ⟨h.1, (if_neg hlarge).mp h.2⟩⟩

/-- Not every box has unit normals: a scale may be too small for it or too large. -/
theorem not_normals_of_every_box :
    (Solid.validScale 1e-9 ∧ ¬ List.Forall₂ (fun d f => f.normal.Same d.outward) boxSides
        (facets ((boxOfScale 1e-9).mesh defaultSegments))) ∧
      Solid.validScale 1e100 ∧ ¬ List.Forall₂ (fun d f => f.normal.Same d.outward) boxSides
        (facets ((boxOfScale 1e100).mesh defaultSegments)) := by
  decide +kernel

end Stl

end SolidScene
