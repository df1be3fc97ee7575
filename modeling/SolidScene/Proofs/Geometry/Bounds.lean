import SolidScene.Geometry.Bounds
import SolidScene.Proofs.Double.Extended

/-!
# Boxes that grow

A box is *proper* when its corners are in order along every axis, which makes all six coordinates
numbers, possibly infinite ones.  A box is the least around some boxes (`IsLeastAround`) when it
covers each of them, every box that does so covers it, and each of its coordinates is one of theirs,
but for the sign of a zero.

* Along each axis a union reaches from the lesser of two lowest coordinates to the greater of two
  greatest ones, and so does a box with one more point (`IsJoin`).  Therefore the join of two least
  boxes is the least box around all boxes of both (`IsLeastAround.join`).
* The inverted infinite box adds nothing, so a row of boxes united one after another gives the least
  box around all of them (`isLeastAround_foldl_union`), and a row of points the least box around the
  points (`isLeastAround_foldl_includePoint`).
* Least boxes around the same boxes are the same but for the sign of zeros (`IsLeastAround.same`),
  so the order of a row does not matter.
-/

namespace SolidScene

open Double

/-! ### Coordinates -/

/-- The axes of space. -/
inductive Axis
  | x
  | y
  | z
  deriving DecidableEq, Repr

instance : Fintype Axis := ⟨{.x, .y, .z}, fun i => by cases i <;> decide⟩

namespace Vec3

/-- The coordinate of a point along an axis. -/
def coord (p : Vec3) : Axis → Float
  | .x => p.x
  | .y => p.y
  | .z => p.z

/-- Whether all coordinates are numbers, finite or not. -/
def IsNumber (p : Vec3) : Prop := ∀ i, Double.IsNumber (p.coord i)

@[simp] theorem coord_add (p q : Vec3) (i : Axis) : (p + q).coord i = p.coord i + q.coord i := by
  cases i <;> rfl

@[simp] theorem coord_sub (p q : Vec3) (i : Axis) : (p - q).coord i = p.coord i - q.coord i := by
  cases i <;> rfl

theorem ext_coord {p q : Vec3} (h : ∀ i, p.coord i = q.coord i) : p = q := by
  obtain ⟨px, py, pz⟩ := p
  obtain ⟨qx, qy, qz⟩ := q
  rw [Vec3.mk.injEq]
  exact ⟨h .x, h .y, h .z⟩

end Vec3

/-! ### The lesser and the greater of two numbers -/

section Pair

variable {a b : Float}

theorem lesser_eq_ite (ha : IsNumber a) : lesser a b = if b < a then b else a := by
  rw [lesser, show a.isNaN = false from ha, if_neg Bool.false_ne_true]

theorem greater_eq_ite (ha : IsNumber a) : greater a b = if a < b then b else a := by
  rw [greater, show a.isNaN = false from ha, if_neg Bool.false_ne_true]

theorem extended_lesser (ha : IsNumber a) (hb : IsNumber b) :
    IsNumber (lesser a b) ∧ extended (lesser a b) = extended a ⊓ extended b := by
  rw [lesser_eq_ite ha]
  split
  · next h =>
    rw [lt_iff_extended hb ha] at h
    exact ⟨hb, (inf_eq_right.2 h.le).symm⟩
  · next h =>
    rw [lt_iff_extended hb ha, not_lt] at h
    exact ⟨ha, (inf_eq_left.2 h).symm⟩

theorem extended_greater (ha : IsNumber a) (hb : IsNumber b) :
    IsNumber (greater a b) ∧ extended (greater a b) = extended a ⊔ extended b := by
  rw [greater_eq_ite ha]
  split
  · next h =>
    rw [lt_iff_extended ha hb] at h
    exact ⟨hb, (sup_eq_right.2 h.le).symm⟩
  · next h =>
    rw [lt_iff_extended ha hb, not_lt] at h
    exact ⟨ha, (sup_eq_left.2 h).symm⟩

theorem extended_infinity :
    IsNumber Bounds.infinity ∧ extended Bounds.infinity = ⊤ := by
  decide

theorem extended_neg_infinity :
    IsNumber (-Bounds.infinity) ∧ extended (-Bounds.infinity) = ⊥ := by
  decide

theorem lesser_infinity (hb : IsNumber b) : lesser Bounds.infinity b = b := by
  rw [lesser_eq_ite extended_infinity.1]
  split
  · rfl
  · next h =>
    rw [lt_iff_extended hb extended_infinity.1, extended_infinity.2, not_lt, top_le_iff] at h
    exact (eq_infinity_of_extended_eq_top hb h).symm

theorem greater_neg_infinity (hb : IsNumber b) : greater (-Bounds.infinity) b = b := by
  rw [greater_eq_ite extended_neg_infinity.1]
  split
  · rfl
  · next h =>
    rw [lt_iff_extended extended_neg_infinity.1 hb, extended_neg_infinity.2, not_lt,
      le_bot_iff] at h
    exact (eq_neg_infinity_of_extended_eq_bot hb h).symm

/-- The greater of zero and anything is a number from zero on. -/
theorem zero_le_greater (x : Float) : 0.0 ≤ greater x 0.0 := by
  rw [greater]
  split
  · exact float_le_refl extended_zero.1
  · next hnumber =>
    have hx : IsNumber x := Bool.eq_false_iff.2 hnumber
    split
    · exact float_le_refl extended_zero.1
    · next hlt => exact (float_not_lt hx extended_zero.1).1 hlt

theorem greater_zero {x : Float} (h : 0.0 ≤ x) : greater x 0.0 = x := by
  have hx := (isNumber_of_le h).2
  rw [greater_eq_ite hx, if_neg ((float_not_lt hx extended_zero.1).2 h)]

end Pair

namespace Bounds

/-! ### Proper boxes -/

/-- Whether the corners are in order along every axis. -/
def IsProper (b : Bounds) : Prop := ∀ i, b.min.coord i ≤ b.max.coord i

/-- Whether one box reaches as far as another one along every axis. -/
def Covers (a b : Bounds) : Prop :=
  ∀ i, a.min.coord i ≤ b.min.coord i ∧ b.max.coord i ≤ a.max.coord i

/-- Whether two boxes are the same but for the sign of zeros. -/
def Same (a b : Bounds) : Prop :=
  ∀ i, a.min.coord i == b.min.coord i ∧ a.max.coord i == b.max.coord i

/-- The box of a single point. -/
def point (p : Vec3) : Bounds := ⟨p, p⟩

/-- Whether a box is the least around some boxes, each coordinate being one of theirs. -/
structure IsLeastAround (b : Bounds) (boxes : List Bounds) : Prop where
  proper : b.IsProper
  covers : ∀ c ∈ boxes, b.Covers c
  least : ∀ d : Bounds, (∀ c ∈ boxes, d.Covers c) → d.Covers b
  min_attained : ∀ i, ∃ c ∈ boxes, b.min.coord i == c.min.coord i
  max_attained : ∀ i, ∃ c ∈ boxes, b.max.coord i == c.max.coord i

section Boxes

variable {a b c d u : Bounds} {p : Vec3}

theorem IsProper.isNumber (h : b.IsProper) : b.min.IsNumber ∧ b.max.IsNumber :=
  ⟨fun i => (isNumber_of_le (h i)).1, fun i => (isNumber_of_le (h i)).2⟩

theorem IsProper.covers_self (h : b.IsProper) : b.Covers b := fun i =>
  ⟨float_le_refl (h.isNumber.1 i), float_le_refl (h.isNumber.2 i)⟩

theorem Covers.trans (hab : a.Covers b) (hbc : b.Covers c) : a.Covers c := fun i =>
  ⟨float_le_trans (hab i).1 (hbc i).1, float_le_trans (hbc i).2 (hab i).2⟩

theorem Covers.same (hab : a.Covers b) (hba : b.Covers a) : a.Same b := fun i =>
  ⟨float_beq_of_le_of_le (hab i).1 (hba i).1, float_beq_of_le_of_le (hba i).2 (hab i).2⟩

theorem isProper_point (hp : p.IsNumber) : (point p).IsProper := fun i => float_le_refl (hp i)

theorem isEmpty_empty : empty.isEmpty = true := by decide

theorem isEmpty_iff : b.isEmpty = true ↔ ∃ i, b.max.coord i < b.min.coord i := by
  simp only [isEmpty, gt_iff_lt, Bool.or_eq_true, decide_eq_true_iff]
  constructor
  · rintro ((h | h) | h)
    · exact ⟨.x, h⟩
    · exact ⟨.y, h⟩
    · exact ⟨.z, h⟩
  · rintro ⟨i, h⟩
    cases i with
    | x => exact .inl (.inl h)
    | y => exact .inl (.inr h)
    | z => exact .inr h

theorem IsProper.isEmpty_eq_false (h : b.IsProper) : b.isEmpty = false := by
  rw [← Bool.not_eq_true, isEmpty_iff]
  rintro ⟨i, hi⟩
  exact (float_not_lt (h.isNumber.2 i) (h.isNumber.1 i)).2 (h i) hi

/-! ### Joins -/

/-- Whether a box reaches along each axis from the lesser of two lowest coordinates to the greater
of two greatest ones. -/
structure IsJoin (u a b : Bounds) : Prop where
  isNumber : ∀ i, IsNumber (u.min.coord i) ∧ IsNumber (u.max.coord i)
  min_eq : ∀ i, extended (u.min.coord i) = extended (a.min.coord i) ⊓ extended (b.min.coord i)
  max_eq : ∀ i, extended (u.max.coord i) = extended (a.max.coord i) ⊔ extended (b.max.coord i)

@[simp] theorem coord_min_includePoint (b : Bounds) (p : Vec3) (i : Axis) :
    (b.includePoint p).min.coord i = lesser (b.min.coord i) (p.coord i) := by
  cases i <;> rfl

@[simp] theorem coord_max_includePoint (b : Bounds) (p : Vec3) (i : Axis) :
    (b.includePoint p).max.coord i = greater (b.max.coord i) (p.coord i) := by
  cases i <;> rfl

/-- One more point. -/
theorem isJoin_includePoint (hmin : b.min.IsNumber) (hmax : b.max.IsNumber) (hp : p.IsNumber) :
    IsJoin (b.includePoint p) b (point p) := by
  have hlesser i := extended_lesser (hmin i) (hp i)
  have hgreater i := extended_greater (hmax i) (hp i)
  refine ⟨fun i => ?_, fun i => ?_, fun i => ?_⟩
  · rw [coord_min_includePoint, coord_max_includePoint]
    exact ⟨(hlesser i).1, (hgreater i).1⟩
  · rw [coord_min_includePoint]
    exact (hlesser i).2
  · rw [coord_max_includePoint]
    exact (hgreater i).2

/-- Two proper boxes in one: the corners of the second are included one after the other. -/
theorem isJoin_union (ha : a.IsProper) (hb : b.IsProper) : IsJoin (a.union b) a b := by
  have hunion : a.union b = (a.includePoint b.min).includePoint b.max := by
    rw [union, ha.isEmpty_eq_false, if_neg Bool.false_ne_true, hb.isEmpty_eq_false,
      if_neg Bool.false_ne_true]
  have hfirst := isJoin_includePoint ha.isNumber.1 ha.isNumber.2 hb.isNumber.1
  have hsecond := isJoin_includePoint (fun i => (hfirst.isNumber i).1)
    (fun i => (hfirst.isNumber i).2) hb.isNumber.2
  rw [hunion]
  refine ⟨hsecond.isNumber, fun i => ?_, fun i => ?_⟩
  · rw [hsecond.min_eq, hfirst.min_eq, inf_assoc]
    exact congrArg _ (inf_eq_left.2 (extended_le_of_le (hb i)))
  · rw [hsecond.max_eq, hfirst.max_eq, sup_assoc]
    exact congrArg _ (sup_eq_right.2 (extended_le_of_le (hb i)))

namespace IsJoin

theorem covers_left (h : IsJoin u a b) (ha : a.IsProper) : u.Covers a := fun i => by
  rw [le_iff_extended (h.isNumber i).1 (ha.isNumber.1 i),
    le_iff_extended (ha.isNumber.2 i) (h.isNumber i).2, h.min_eq, h.max_eq]
  exact ⟨inf_le_left, le_sup_left⟩

theorem covers_right (h : IsJoin u a b) (hb : b.IsProper) : u.Covers b := fun i => by
  rw [le_iff_extended (h.isNumber i).1 (hb.isNumber.1 i),
    le_iff_extended (hb.isNumber.2 i) (h.isNumber i).2, h.min_eq, h.max_eq]
  exact ⟨inf_le_right, le_sup_right⟩

theorem covered (h : IsJoin u a b) (ha : d.Covers a) (hb : d.Covers b) : d.Covers u := fun i => by
  rw [le_iff_extended (isNumber_of_le (ha i).1).1 (h.isNumber i).1,
    le_iff_extended (h.isNumber i).2 (isNumber_of_le (ha i).2).2, h.min_eq, h.max_eq]
  exact ⟨le_inf (extended_le_of_le (ha i).1) (extended_le_of_le (hb i).1),
    sup_le (extended_le_of_le (ha i).2) (extended_le_of_le (hb i).2)⟩

theorem proper (h : IsJoin u a b) (ha : a.IsProper) : u.IsProper := fun i =>
  float_le_trans (h.covers_left ha i).1 (float_le_trans (ha i) (h.covers_left ha i).2)

theorem min_beq_or (h : IsJoin u a b) (ha : a.IsProper) (hb : b.IsProper) (i : Axis) :
    u.min.coord i == a.min.coord i ∨ u.min.coord i == b.min.coord i := by
  rw [beq_iff_extended (h.isNumber i).1 (ha.isNumber.1 i),
    beq_iff_extended (h.isNumber i).1 (hb.isNumber.1 i), h.min_eq]
  exact (le_total _ _).imp inf_eq_left.2 inf_eq_right.2

theorem max_beq_or (h : IsJoin u a b) (ha : a.IsProper) (hb : b.IsProper) (i : Axis) :
    u.max.coord i == a.max.coord i ∨ u.max.coord i == b.max.coord i := by
  rw [beq_iff_extended (h.isNumber i).2 (ha.isNumber.2 i),
    beq_iff_extended (h.isNumber i).2 (hb.isNumber.2 i), h.max_eq]
  exact (le_total _ _).symm.imp sup_eq_left.2 sup_eq_right.2

end IsJoin

/-! ### Least boxes -/

namespace IsLeastAround

variable {as bs : List Bounds}

theorem singleton (hb : b.IsProper) : IsLeastAround b [b] where
  proper := hb
  covers _ hc := List.mem_singleton.1 hc ▸ hb.covers_self
  least _ hd := hd b (List.mem_singleton_self b)
  min_attained i := ⟨b, List.mem_singleton_self b, float_beq_refl (hb.isNumber.1 i)⟩
  max_attained i := ⟨b, List.mem_singleton_self b, float_beq_refl (hb.isNumber.2 i)⟩

/-- A proper box is the least around its corners. -/
theorem corners (hb : b.IsProper) : IsLeastAround b [point b.min, point b.max] where
  proper := hb
  covers := by
    have hself := hb.covers_self
    rw [List.forall_mem_cons, List.forall_mem_singleton]
    exact ⟨fun i => ⟨(hself i).1, hb i⟩, fun i => ⟨hb i, (hself i).2⟩⟩
  least d hd := by
    rw [List.forall_mem_cons, List.forall_mem_singleton] at hd
    exact fun i => ⟨(hd.1 i).1, (hd.2 i).2⟩
  min_attained i := ⟨point b.min, List.mem_cons_self, float_beq_refl (hb.isNumber.1 i)⟩
  max_attained i :=
    ⟨point b.max, List.mem_cons_of_mem _ List.mem_cons_self, float_beq_refl (hb.isNumber.2 i)⟩

/-- **The join of two least boxes** is the least box around all boxes of both. -/
theorem join (h : IsJoin u a b) (ha : IsLeastAround a as) (hb : IsLeastAround b bs) :
    IsLeastAround u (as ++ bs) where
  proper := h.proper ha.proper
  covers c hc := by
    rcases List.mem_append.1 hc with hc | hc
    · exact (h.covers_left ha.proper).trans (ha.covers c hc)
    · exact (h.covers_right hb.proper).trans (hb.covers c hc)
  least d hd := by
    refine h.covered (ha.least d fun c hc => ?_) (hb.least d fun c hc => ?_)
    · exact hd c (List.mem_append_left bs hc)
    · exact hd c (List.mem_append_right as hc)
  min_attained i := by
    rcases h.min_beq_or ha.proper hb.proper i with hi | hi
    · obtain ⟨c, hc, hac⟩ := ha.min_attained i
      exact ⟨c, List.mem_append_left bs hc, float_beq_trans hi hac⟩
    · obtain ⟨c, hc, hbc⟩ := hb.min_attained i
      exact ⟨c, List.mem_append_right as hc, float_beq_trans hi hbc⟩
  max_attained i := by
    rcases h.max_beq_or ha.proper hb.proper i with hi | hi
    · obtain ⟨c, hc, hac⟩ := ha.max_attained i
      exact ⟨c, List.mem_append_left bs hc, float_beq_trans hi hac⟩
    · obtain ⟨c, hc, hbc⟩ := hb.max_attained i
      exact ⟨c, List.mem_append_right as hc, float_beq_trans hi hbc⟩

theorem union (ha : IsLeastAround a as) (hb : IsLeastAround b bs) :
    IsLeastAround (Bounds.union a b) (as ++ bs) :=
  join (isJoin_union ha.proper hb.proper) ha hb

theorem includePoint (hb : IsLeastAround b bs) (hp : p.IsNumber) :
    IsLeastAround (Bounds.includePoint b p) (bs ++ [point p]) :=
  join (isJoin_includePoint hb.proper.isNumber.1 hb.proper.isNumber.2 hp) hb
    (singleton (isProper_point hp))

theorem ne_nil (hb : IsLeastAround b bs) : bs ≠ [] := by
  rintro rfl
  obtain ⟨c, hc, -⟩ := hb.min_attained .x
  cases hc

/-- The least box around some boxes depends on nothing but which they are. -/
theorem of_mem_iff (hb : IsLeastAround b as) (h : ∀ c, c ∈ as ↔ c ∈ bs) : IsLeastAround b bs where
  proper := hb.proper
  covers c hc := hb.covers c ((h c).2 hc)
  least d hd := hb.least d fun c hc => hd c ((h c).1 hc)
  min_attained i := (hb.min_attained i).imp fun c hc => ⟨(h c).1 hc.1, hc.2⟩
  max_attained i := (hb.max_attained i).imp fun c hc => ⟨(h c).1 hc.1, hc.2⟩

/-- Least boxes around the same boxes are the same but for the sign of zeros. -/
theorem same (ha : IsLeastAround a as) (hb : IsLeastAround b bs) (h : ∀ c, c ∈ as ↔ c ∈ bs) :
    a.Same b :=
  (hb.least a fun c hc => ha.covers c ((h c).2 hc)).same
    (ha.least b fun c hc => hb.covers c ((h c).1 hc))

end IsLeastAround

/-! ### Rows of boxes and points -/

theorem union_empty_left (b : Bounds) : empty.union b = b := by
  rw [union, if_pos isEmpty_empty]

theorem includePoint_empty (hp : p.IsNumber) : empty.includePoint p = point p :=
  congrArg₂ Bounds.mk
    (Vec3.ext_coord fun i =>
      (coord_min_includePoint empty p i).trans (by cases i <;> exact lesser_infinity (hp _)))
    (Vec3.ext_coord fun i =>
      (coord_max_includePoint empty p i).trans (by cases i <;> exact greater_neg_infinity (hp _)))

theorem IsLeastAround.foldl_union {bs : List Bounds} (hb : IsLeastAround b bs) (boxes : List Bounds)
    (h : ∀ c ∈ boxes, c.IsProper) : IsLeastAround (boxes.foldl Bounds.union b) (bs ++ boxes) := by
  induction boxes generalizing b bs with
  | nil => rwa [List.append_nil]
  | cons c boxes ih =>
    rw [List.forall_mem_cons] at h
    rw [List.foldl_cons, List.append_cons]
    exact ih (hb.union (.singleton h.1)) h.2

/-- **A row of boxes**, united one after another, gives the least box around them. -/
theorem isLeastAround_foldl_union {boxes : List Bounds} (hboxes : boxes ≠ [])
    (h : ∀ c ∈ boxes, c.IsProper) : IsLeastAround (boxes.foldl union empty) boxes := by
  cases boxes with
  | nil => exact absurd rfl hboxes
  | cons c boxes =>
    rw [List.forall_mem_cons] at h
    rw [List.foldl_cons, union_empty_left]
    exact (IsLeastAround.singleton h.1).foldl_union boxes h.2

theorem IsLeastAround.foldl_includePoint {bs : List Bounds} (hb : IsLeastAround b bs)
    (points : List Vec3) (h : ∀ p ∈ points, p.IsNumber) :
    IsLeastAround (points.foldl Bounds.includePoint b) (bs ++ points.map point) := by
  induction points generalizing b bs with
  | nil => rwa [List.map_nil, List.append_nil]
  | cons p points ih =>
    rw [List.forall_mem_cons] at h
    rw [List.foldl_cons, List.map_cons, List.append_cons]
    exact ih (hb.includePoint h.1) h.2

/-- **A row of points**, included one after another, gives the least box around them. -/
theorem isLeastAround_foldl_includePoint {points : List Vec3} (hpoints : points ≠ [])
    (h : ∀ p ∈ points, p.IsNumber) :
    IsLeastAround (points.foldl includePoint empty) (points.map point) := by
  cases points with
  | nil => exact absurd rfl hpoints
  | cons p points =>
    rw [List.forall_mem_cons] at h
    rw [List.foldl_cons, includePoint_empty h.1]
    exact (IsLeastAround.singleton (isProper_point h.1)).foldl_includePoint points h.2

end Boxes

end Bounds

end SolidScene
