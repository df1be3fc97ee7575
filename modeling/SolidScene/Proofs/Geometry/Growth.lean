import SolidScene.Mesh
import SolidScene.Proofs.Geometry.Bounds

/-!
# Boxes grown step by step

A box grows from the inverted infinite one by steps (`Bounds.Step`): it takes in a point, or it is
united with another box, which stands on either side.  What has grown reaches along each axis from
the least to the greatest coordinate of all points and corners taken in (`Bounds.IsHull`), however
the steps are ordered and grouped.

* The invariant is `Fits`: the box is the least one around the points taken in, or the inverted one
  where there are none.  It tells the points apart by nothing but which they are
  (`Fits.of_mem_iff`), and two boxes that fit the same points are the same but for the sign of zeros
  (`Fits.same`).
* A step keeps it (`Step.fits_apply`), and so does a union (`Fits.union`), for which the inverted
  box is neutral.
* A `Plan` is a tree of steps and unions.  Its box fits the points of all its steps
  (`Plan.fits_box`), by induction on the plan; a row of steps is the plan that unites nothing
  (`Plan.ofSteps`).

The box of a mesh is grown from its vertices, so that of two meshes in one is the union of their
boxes (`Mesh.same_bounds_append`).
-/

namespace SolidScene

open Double

namespace Bounds

/-! ### The size of a box -/

@[simp] theorem coord_size (b : Bounds) (i : Axis) :
    b.size.coord i = greater (b.max.coord i - b.min.coord i) 0.0 := by
  cases i <;> rfl

/-- The size of a box is never below zero, not even where infinity is taken from infinity. -/
theorem coord_size_nonneg (b : Bounds) (i : Axis) :
    IsNumber (b.size.coord i) ∧ 0.0 ≤ b.size.coord i := by
  have hnonneg := zero_le_greater (b.max.coord i - b.min.coord i)
  rw [coord_size]
  exact ⟨(isNumber_of_le hnonneg).2, hnonneg⟩

/-- The size of a proper box is the difference of its corners, unless both are at one infinity. -/
theorem IsProper.coord_size_eq {b : Bounds} (hb : b.IsProper) {i : Axis}
    (h : IsNumber (b.max.coord i - b.min.coord i)) :
    b.size.coord i = b.max.coord i - b.min.coord i :=
  (coord_size b i).trans (greater_zero (float_sub_nonneg (hb i) h))

/-! ### Steps -/

/-- The lowest and the highest corner of a box, unless it is empty. -/
def corners (b : Bounds) : List Vec3 := if b.isEmpty then [] else [b.min, b.max]

/-- A step by which a box grows. -/
inductive Step
  | point (p : Vec3)
  | union (b : Bounds)
  | unionInto (b : Bounds)

namespace Step

/-- A box after one more step. -/
def apply (box : Bounds) : Step → Bounds
  | point p => box.includePoint p
  | union b => Bounds.union box b
  | unionInto b => Bounds.union b box

/-- The points that a step takes in. -/
def corners : Step → List Vec3
  | point p => [p]
  | union b => b.corners
  | unionInto b => b.corners

/-- Whether a step takes in a point of numbers, a proper box or the inverted infinite one. -/
def IsProper : Step → Prop
  | point p => p.IsNumber
  | union b => b.IsProper ∨ b = empty
  | unionInto b => b.IsProper ∨ b = empty

instance : DecidablePred Step.IsProper
  | point p => inferInstanceAs (Decidable (∀ i, Double.IsNumber (p.coord i)))
  | union b | unionInto b =>
    inferInstanceAs (Decidable ((∀ i, b.min.coord i ≤ b.max.coord i) ∨ b = empty))

end Step

/-- The box that has grown by some steps, one after another. -/
def grow (steps : List Step) : Bounds := steps.foldl Step.apply empty

/-- A way to put steps together: one more step, or two boxes that have grown apart united. -/
inductive Plan
  | nothing
  | step (plan : Plan) (s : Step)
  | union (first second : Plan)

namespace Plan

/-- The steps of a plan, from left to right. -/
def steps : Plan → List Step
  | nothing => []
  | step plan s => plan.steps ++ [s]
  | union first second => first.steps ++ second.steps

/-- The box that a plan gives. -/
def box : Plan → Bounds
  | nothing => empty
  | step plan s => s.apply plan.box
  | union first second => Bounds.union first.box second.box

/-- The plan to take some steps one after another. -/
def ofSteps (steps : List Step) : Plan := steps.foldl step nothing

@[simp] theorem box_ofSteps (steps : List Step) : (ofSteps steps).box = grow steps :=
  (List.foldl_hom box fun _ _ => rfl).symm

@[simp] theorem steps_ofSteps (row : List Step) : (ofSteps row).steps = row := by
  have hfold (plan : Plan) : (row.foldl step plan).steps = plan.steps ++ row := by
    induction row generalizing plan with
    | nil => rw [List.foldl_nil, List.append_nil]
    | cons s row ih => rw [List.foldl_cons, ih, steps, ← List.append_cons]
  exact hfold nothing

end Plan

/-! ### Boxes that fit points -/

/-- Whether a box is the least around some points, and the inverted one where there are none. -/
def Fits (b : Bounds) (points : List Vec3) : Prop :=
  points = [] ∧ b = empty ∨ b.IsLeastAround (points.map point)

section Fits

variable {a b : Bounds} {points others : List Vec3} {p : Vec3}

namespace Fits

theorem empty : Fits .empty [] := .inl ⟨rfl, rfl⟩

theorem corners (h : b.IsProper ∨ b = .empty) : b.Fits b.corners := by
  rw [Bounds.corners]
  rcases h with h | rfl
  · rw [h.isEmpty_eq_false, if_neg Bool.false_ne_true]
    exact .inr (.corners h)
  · rw [isEmpty_empty, if_pos rfl]
    exact empty

/-- The order of the points does not matter. -/
theorem of_mem_iff (hb : b.Fits points) (h : ∀ p, p ∈ points ↔ p ∈ others) : b.Fits others := by
  rcases hb with ⟨rfl, hempty⟩ | hb
  · have hothers : others = [] :=
      List.eq_nil_iff_forall_not_mem.2 fun p hp => List.not_mem_nil ((h p).2 hp)
    exact .inl ⟨hothers, hempty⟩
  · refine .inr (hb.of_mem_iff fun c => ?_)
    simp only [List.mem_map, h]

theorem includePoint (hb : b.Fits points) (hp : p.IsNumber) :
    (b.includePoint p).Fits (points ++ [p]) := by
  rcases hb with ⟨rfl, rfl⟩ | hb
  · rw [includePoint_empty hp, List.nil_append]
    exact .inr (.singleton (isProper_point hp))
  · have hpoint := hb.includePoint hp
    rw [← List.map_singleton, ← List.map_append] at hpoint
    exact .inr hpoint

/-- A union fits the points of both boxes; the inverted box adds nothing on either side. -/
theorem union (ha : a.Fits points) (hb : b.Fits others) :
    (Bounds.union a b).Fits (points ++ others) := by
  rcases ha with ⟨rfl, rfl⟩ | ha
  · rwa [union_empty_left, List.nil_append]
  rcases hb with ⟨rfl, rfl⟩ | hb
  · rw [Bounds.union, ha.proper.isEmpty_eq_false, if_neg Bool.false_ne_true, isEmpty_empty,
      if_pos rfl, List.append_nil]
    exact .inr ha
  · have hunion := ha.union hb
    rw [← List.map_append] at hunion
    exact .inr hunion

/-- Boxes that fit the same points are the same but for the sign of zeros. -/
theorem same (ha : a.Fits points) (hb : b.Fits points) : a.Same b := by
  rcases ha with ⟨rfl, rfl⟩ | ha
  · rcases hb with ⟨-, rfl⟩ | hb
    · have hself := And.intro (float_beq_refl extended_infinity.1)
        (float_beq_refl extended_neg_infinity.1)
      exact fun i => by cases i <;> exact hself
    · exact absurd rfl hb.ne_nil
  · rcases hb with ⟨rfl, -⟩ | hb
    · exact absurd rfl ha.ne_nil
    · exact ha.same hb fun _ => .rfl

end Fits

end Fits

/-! ### Plans -/

section Plans

variable {box : Bounds} {points : List Vec3}

/-- A step takes in its points. -/
theorem Step.fits_apply {s : Step} (hs : s.IsProper) (hbox : box.Fits points) :
    (s.apply box).Fits (points ++ s.corners) := by
  cases s with
  | point p => exact hbox.includePoint hs
  | union b => exact hbox.union (.corners hs)
  | unionInto b =>
    -- The box that has grown stands second here, and its points come last.
    refine ((Fits.corners hs).union hbox).of_mem_iff fun p => ?_
    rw [List.mem_append, List.mem_append, or_comm]
    rfl

/-- A plan takes in the points of all its steps. -/
theorem Plan.fits_box (plan : Plan) (h : ∀ s ∈ plan.steps, s.IsProper) :
    plan.box.Fits (plan.steps.flatMap Step.corners) := by
  induction plan with
  | nothing => exact .empty
  | step plan s ih =>
    rw [steps, List.forall_mem_append, List.forall_mem_singleton] at h
    rw [steps, List.flatMap_append, List.flatMap_singleton]
    exact Step.fits_apply h.2 (ih h.1)
  | union first second ihfirst ihsecond =>
    rw [steps, List.forall_mem_append] at h
    rw [steps, List.flatMap_append]
    exact (ihfirst h.1).union (ihsecond h.2)

/-- A row of steps takes in the points of each. -/
theorem fits_grow {steps : List Step} (h : ∀ s ∈ steps, s.IsProper) :
    (grow steps).Fits (steps.flatMap Step.corners) := by
  have hplan := Plan.fits_box (.ofSteps steps) (by rwa [Plan.steps_ofSteps])
  rwa [Plan.box_ofSteps, Plan.steps_ofSteps] at hplan

/-- **Order and grouping do not matter**: a plan with the same steps gives the same box. -/
theorem Plan.same_grow (plan : Plan) {steps : List Step} (hperm : plan.steps.Perm steps)
    (h : ∀ s ∈ steps, s.IsProper) : plan.box.Same (grow steps) := by
  have hplan := plan.fits_box fun s hs => h s (hperm.mem_iff.1 hs)
  exact (hplan.of_mem_iff fun _ => (hperm.flatMap_right _).mem_iff).same (fits_grow h)

end Plans

/-! ### What has grown -/

/-- Whether a number is the least of some numbers, but for the sign of a zero. -/
def IsLeastOf (x : Float) (row : List Float) : Prop := (∀ y ∈ row, x ≤ y) ∧ ∃ y ∈ row, x == y

/-- Whether a number is the greatest of some numbers, but for the sign of a zero. -/
def IsGreatestOf (x : Float) (row : List Float) : Prop := (∀ y ∈ row, y ≤ x) ∧ ∃ y ∈ row, x == y

/-- Whether a box is just what some points take up: along each axis it reaches from their least
coordinate to their greatest one, and without points it is the inverted box.  Its size is a number
from zero on. -/
structure IsHull (b : Bounds) (points : List Vec3) : Prop where
  isLeastOf_min : points ≠ [] → ∀ i, IsLeastOf (b.min.coord i) (points.map (·.coord i))
  isGreatestOf_max : points ≠ [] → ∀ i, IsGreatestOf (b.max.coord i) (points.map (·.coord i))
  eq_empty : points = [] → b = empty
  isEmpty_iff : b.isEmpty ↔ points = []
  size_nonneg : ∀ i, IsNumber (b.size.coord i) ∧ 0.0 ≤ b.size.coord i
  size_eq : points ≠ [] → ∀ i, IsNumber (b.max.coord i - b.min.coord i) →
    b.size.coord i = b.max.coord i - b.min.coord i

section Hull

variable {b : Bounds} {points : List Vec3}

theorem isHull_empty : IsHull empty [] where
  isLeastOf_min h := absurd rfl h
  isGreatestOf_max h := absurd rfl h
  eq_empty _ := rfl
  isEmpty_iff := iff_of_true isEmpty_empty rfl
  size_nonneg := coord_size_nonneg empty
  size_eq h := absurd rfl h

theorem IsLeastAround.isHull (h : b.IsLeastAround (points.map point)) : b.IsHull points where
  isLeastOf_min _ i := by
    obtain ⟨c, hc, hmin⟩ := h.min_attained i
    obtain ⟨p, hp, rfl⟩ := List.mem_map.1 hc
    refine ⟨List.forall_mem_map.2 fun q hq => ?_, p.coord i, List.mem_map_of_mem hp, hmin⟩
    exact (h.covers _ (List.mem_map_of_mem hq) i).1
  isGreatestOf_max _ i := by
    obtain ⟨c, hc, hmax⟩ := h.max_attained i
    obtain ⟨p, hp, rfl⟩ := List.mem_map.1 hc
    refine ⟨List.forall_mem_map.2 fun q hq => ?_, p.coord i, List.mem_map_of_mem hp, hmax⟩
    exact (h.covers _ (List.mem_map_of_mem hq) i).2
  eq_empty hnil := absurd (hnil ▸ List.map_nil) h.ne_nil
  isEmpty_iff := iff_of_false (Bool.eq_false_iff.1 h.proper.isEmpty_eq_false)
    (mt (fun hnil => hnil ▸ List.map_nil) h.ne_nil)
  size_nonneg := coord_size_nonneg b
  size_eq _ _ := h.proper.coord_size_eq

theorem Fits.isHull (h : b.Fits points) : b.IsHull points := by
  rcases h with ⟨rfl, rfl⟩ | h
  · exact isHull_empty
  · exact h.isHull

end Hull

/-- **A grown box is what its steps take up**, whatever their order and grouping: it reaches along
each axis from the least to the greatest coordinate of all points and corners taken in, it is empty
just when there are none, and its size is never below zero.  The steps in another order give the
same box, and so do boxes that have grown apart by some of the steps each and are united
afterwards. -/
theorem grow_exact (steps : List Step) (h : ∀ s ∈ steps, s.IsProper) :
    (grow steps).IsHull (steps.flatMap Step.corners) ∧
      (∀ reordered : List Step, reordered.Perm steps → (grow reordered).Same (grow steps)) ∧
      ∀ plan : Plan, plan.steps.Perm steps → plan.box.Same (grow steps) := by
  refine ⟨(fits_grow h).isHull, fun reordered hperm => ?_, fun plan hperm => plan.same_grow hperm h⟩
  have hsame := (Plan.ofSteps reordered).same_grow (by rwa [Plan.steps_ofSteps]) h
  rwa [Plan.box_ofSteps] at hsame

/-- Steps along a line at infinity, with zeros of both signs and the inverted box on either side. -/
def farSteps : List Step :=
  [.unionInto empty, .point ⟨infinity, -0.0, 3.0⟩,
    .union ⟨⟨infinity, 0.0, -infinity⟩, ⟨infinity, -0.0, 1e308⟩⟩, .union empty,
    .unionInto ⟨⟨infinity, -2.5, 0.0⟩, ⟨infinity, 0.0, 0.0⟩⟩]

example : (grow farSteps).size = ⟨0.0, 2.5, infinity⟩ := by decide +kernel

theorem grow_exact_farSteps :
    (∀ s ∈ farSteps, s.IsProper) ∧ (grow farSteps).IsHull (farSteps.flatMap Step.corners) ∧
      (∀ reordered : List Step, reordered.Perm farSteps →
        (grow reordered).Same (grow farSteps)) ∧
      ∀ plan : Plan, plan.steps.Perm farSteps → plan.box.Same (grow farSteps) :=
  have hproper : ∀ s ∈ farSteps, s.IsProper := by decide +kernel
  ⟨hproper, grow_exact farSteps hproper⟩

end Bounds

/-! ### Meshes -/

namespace Mesh

/-- The steps that take in the vertices of a mesh. -/
def steps (m : Mesh) : List Bounds.Step := m.vertices.toList.map .point

theorem bounds_eq_grow (m : Mesh) : m.bounds = .grow m.steps := by
  rw [bounds, Bounds.grow, steps, List.foldl_map, ← Array.foldl_toList]
  rfl

/-- The box of two meshes in one is the union of their boxes. -/
theorem same_bounds_append {m n : Mesh} (hm : ∀ v ∈ m.vertices, v.IsNumber)
    (hn : ∀ v ∈ n.vertices, v.IsNumber) : (m.bounds.union n.bounds).Same (m ++ n).bounds := by
  have hsteps : (m ++ n).steps = m.steps ++ n.steps := by
    rw [steps, vertices_append, Array.toList_append, List.map_append]
    rfl
  have hproper : ∀ s ∈ m.steps ++ n.steps, s.IsProper := by
    rw [List.forall_mem_append, steps, steps, List.forall_mem_map, List.forall_mem_map]
    exact ⟨fun v hv => hm v (Array.mem_toList_iff.1 hv),
      fun v hv => hn v (Array.mem_toList_iff.1 hv)⟩
  have hsame := Bounds.Plan.same_grow (.union (.ofSteps m.steps) (.ofSteps n.steps))
    (by simp [Bounds.Plan.steps]) hproper
  rwa [Bounds.Plan.box, Bounds.Plan.box_ofSteps, Bounds.Plan.box_ofSteps, ← bounds_eq_grow,
    ← bounds_eq_grow, ← hsteps, ← bounds_eq_grow] at hsame

end Mesh

end SolidScene
