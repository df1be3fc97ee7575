import SolidScene.Proofs.Double.Error
import SolidScene.Proofs.Script.ScanWritten
import SolidScene.Workspace

/-!
# Writing and reading back settles a scene

To write a scene and read its script back changes scales, since lengths are written in hundredths.
But this happens once: a scale that was read from hundredths leads to the same hundredths again, so
from the second time on the shapes stay as they are.

* A length in hundredths survives the way through the scale (`hundredths_settledScale`), since a few
  roundings move it by far less than half a hundredth.
* So what reading makes of a written solid is kept as it is (`settles`), and reading a whole script
  gives these solids in an order that a second reading keeps (`inReadingOrder_inReadingOrder`).
-/

namespace SolidScene

open Script Double

/-! ### A length on its way through the scale -/

theorem isFactor_sphereRadiusFactor : IsFactor sphereRadiusFactor :=
  isFactor_of_ofFloat? (by decide)

theorem isFactor_cylinderRadiusFactor : IsFactor cylinderRadiusFactor :=
  isFactor_of_ofFloat? (by decide)

theorem isFactor_cylinderHeightFactor : IsFactor cylinderHeightFactor :=
  isFactor_of_ofFloat? (by decide)

theorem isFactor_unit (unit : LengthUnit) : IsFactor unit.factor :=
  isFactor_of_ofFloat? (by cases unit <;> decide)

/-- The whole number by which a unit multiplies. -/
def LengthUnit.multiple : LengthUnit → ℕ
  | millimeters => 1
  | centimeters => 10
  | meters => 1000

theorem value_unit (unit : LengthUnit) : value unit.factor = unit.multiple := by
  cases unit with
  | millimeters =>
    rw [value_of_ofFloat? (m := 2 ^ 52) (e := -52) (by decide)]
    norm_num [LengthUnit.multiple]
  | centimeters =>
    rw [value_of_ofFloat? (m := 10 * 2 ^ 49) (e := -49) (by decide)]
    norm_num [LengthUnit.multiple]
  | meters =>
    rw [value_of_ofFloat? (m := 1000 * 2 ^ 43) (e := -43) (by decide)]
    norm_num [LengthUnit.multiple]

theorem value_cylinderRadiusFactor : value cylinderRadiusFactor = 1 / 2 := by
  rw [value_of_ofFloat? (m := 2 ^ 52) (e := -53) (by decide)]
  norm_num

theorem value_cylinderHeightFactor : value cylinderHeightFactor = 3 / 2 := by
  rw [value_of_ofFloat? (m := 3 * 2 ^ 51) (e := -52) (by decide)]
  norm_num

/-- The scale that a scan takes from some hundredths, without any unit. -/
def scannedScale (kind : Kind) (h : ℕ) : Float :=
  scaleOfLength kind (Decimal.ofHundredths h).toFloat

/-- The scale of a solid whose length is written as some hundredths. -/
def settledScale (unit : LengthUnit) (kind : Kind) (h : ℕ) : Float :=
  scaleOfLength kind (Decimal.ofHundredths h).toFloat / unit.factor

/-- The length of a solid of scale one: the edge of a box, the radius of the others. -/
def lengthFactor : Kind → ℚ
  | .box => 1
  | .sphere => value sphereRadiusFactor
  | .cylinder => value cylinderRadiusFactor

theorem lengthFactor_pos (kind : Kind) : 0 < lengthFactor kind := by
  cases kind with
  | box => exact one_pos
  | sphere => exact isFactor_sphereRadiusFactor.pos
  | cylinder => exact isFactor_cylinderRadiusFactor.pos

section Hundredths

variable {h : ℕ}

/-- A scale is multiplied by at most two factors. -/
theorem isNear_leadingLength (unit : LengthUnit) (kind : Kind) {n : ℕ} {x : Float} {q : ℚ}
    (hx : IsNear n x q) (hn : n + 2 ≤ mostRoundings) :
    IsNear (n + 2) (leadingLength unit.factor ⟨kind, x⟩)
      (q * lengthFactor kind * value unit.factor) := by
  have hunit := isFactor_unit unit
  have hradius {c : Float} (hc : IsFactor c) :
      IsNear (n + 2) (c * x * unit.factor) (q * value c * value unit.factor) :=
    (hx.factor_mul hc (by omega)).mul hunit (by omega)
  cases kind with
  | box =>
    rw [lengthFactor, mul_one]
    exact (hx.mul hunit (by omega)).mono (by omega)
  | sphere => exact hradius isFactor_sphereRadiusFactor
  | cylinder => exact hradius isFactor_cylinderRadiusFactor

/-- A length is divided by one factor at most to be a scale. -/
theorem isNear_scannedScale (kind : Kind) (hpos : 1 ≤ h) (hle : h ≤ mostHundredths) :
    IsNear 2 (scannedScale kind h) (h / 100 / lengthFactor kind) := by
  have hlength := isNear_ofHundredths hpos hle
  cases kind with
  | box =>
    have hedge : (h : ℚ) / 100 / lengthFactor .box = h / 100 := by simp [lengthFactor]
    rw [hedge]
    exact hlength.mono (by decide)
  | sphere => exact hlength.div isFactor_sphereRadiusFactor (by decide)
  | cylinder => exact hlength.div isFactor_cylinderRadiusFactor (by decide)

/-- The scale of some hundredths is of ordinary size. -/
theorem isNear_settledScale (unit : LengthUnit) (kind : Kind) (hpos : 1 ≤ h)
    (hle : h ≤ mostHundredths) :
    IsNear 3 (settledScale unit kind h) (h / 100 / lengthFactor kind / value unit.factor) :=
  (isNear_scannedScale kind hpos hle).div (isFactor_unit unit) (by decide)

/-- **A length in hundredths survives the way through the scale.** -/
theorem hundredths_settledScale (unit : LengthUnit) (kind : Kind) (hpos : 1 ≤ h)
    (hle : h ≤ mostHundredths) :
    hundredths (leadingLength unit.factor ⟨kind, settledScale unit kind h⟩) = h := by
  have hlength := isNear_leadingLength unit kind (isNear_settledScale unit kind hpos hle)
    (by decide)
  -- What was divided by the two factors is multiplied by them again.
  rw [div_mul_eq_mul_div, div_mul_cancel₀ _ (lengthFactor_pos kind).ne',
    div_mul_cancel₀ _ (isFactor_unit unit).pos.ne'] at hlength
  exact hlength.hundredths_eq (by decide) hle

/-- No hundredths give no valid scale. -/
theorem validScale_settledScale_zero (unit : LengthUnit) (kind : Kind) :
    Solid.validScale (settledScale unit kind 0) = false := by
  cases unit <;> cases kind <;> decide

end Hundredths

/-! ### What reading makes of a written solid -/

section Settles

variable {unit : LengthUnit} {s t : Solid}

/-- A length without a minus is read as its hundredths say. -/
theorem toFloat?_lengthValue {x : Float} {h : ℕ} (hx : hundredths x = h) :
    (lengthValue x).toFloat? = some (Decimal.ofHundredths h).toFloat := by
  rw [lengthValue, hx, Value.ofHundredths, Value.toFloat?, Int.natAbs_natCast,
    decide_eq_false (Int.natCast_nonneg h).not_gt, if_neg Bool.false_ne_true]

theorem readBack_eq {x : Float} {h : ℕ} (hx : hundredths x = h) :
    readBack x = (Decimal.ofHundredths h).toFloat := by
  rw [readBack, toFloat?_lengthValue hx, Option.getD_some]

/-- The solid of a literal has the scale of the hundredths that are written. -/
theorem solidOfLiteral?_eq {h : ℕ} (hs : hundredths (leadingLength unit.factor s) = h) :
    solidOfLiteral? unit.factor s =
      if Solid.validScale (settledScale unit s.kind h) then
        some ⟨s.kind, settledScale unit s.kind h⟩
      else none := by
  rw [solidOfLiteral?, toFloat?_lengthValue hs]
  rfl

/-- A length that is written without a minus and is not too large. -/
def HasPlainLength (unit : LengthUnit) (s : Solid) : Prop :=
  ∃ h ≤ mostHundredths, hundredths (leadingLength unit.factor s) = h

/-- **What reading makes of a written solid is kept as it is**: its length is written with the same
hundredths. -/
theorem settles (hs : HasPlainLength unit s) (ht : solidOfLiteral? unit.factor s = some t) :
    solidOfLiteral? unit.factor t = some t ∧ ∃ h, 1 ≤ h ∧ h ≤ mostHundredths ∧
      t.scale = settledScale unit t.kind h := by
  obtain ⟨h, hle, hh⟩ := hs
  have hliteral := solidOfLiteral?_eq hh
  rw [ht] at hliteral
  have hpos : 1 ≤ h := by
    rcases Nat.eq_zero_or_pos h with rfl | hpos
    · rw [validScale_settledScale_zero, if_neg Bool.false_ne_true] at hliteral
      cases hliteral
    · exact hpos
  have hvalid := (isNear_settledScale unit s.kind hpos hle).validScale (by decide)
  rw [if_pos hvalid] at hliteral
  cases hliteral
  refine ⟨?_, h, hpos, hle, rfl⟩
  rw [solidOfLiteral?_eq (hundredths_settledScale unit s.kind hpos hle), if_pos hvalid]

/-! ### Solids of ordinary size -/

/-- A solid whose scale is valid and at most `2 ^ 90`. -/
structure IsOrdinary (s : Solid) : Prop where
  valid : Solid.validScale s.scale
  bounded : IsBounded 90 s.scale

theorem IsOrdinary.hundredths_nonneg (hs : IsOrdinary s) (unit : LengthUnit) :
    ∀ x ∈ shownLengths unit.factor s, 0 ≤ hundredths x := by
  have hradius {c : Float} (hc : IsFactor c) : 0 ≤ hundredths (c * s.scale * unit.factor) :=
    ((hc.isBounded.mul hs.bounded (by decide)).mul (isFactor_unit unit).isBounded
      (by decide)).hundredths_nonneg
  have hedge : 0 ≤ hundredths (s.scale * unit.factor) :=
    (hs.bounded.mul (isFactor_unit unit).isBounded (by decide)).hundredths_nonneg
  obtain ⟨kind, scale⟩ := s
  cases kind with
  | box => simpa [shownLengths] using hedge
  | sphere => simpa [shownLengths] using hradius isFactor_sphereRadiusFactor
  | cylinder =>
    simpa [shownLengths] using
      ⟨hradius isFactor_cylinderRadiusFactor, hradius isFactor_cylinderHeightFactor⟩

/-- A length is at most the scale times the unit. -/
theorem isBounded_leadingLength (unit : LengthUnit) {a : ℕ} (hs : IsBounded a s.scale)
    (ha : a + 10 < 1024) : IsBounded (a + 10) (leadingLength unit.factor s) := by
  have hunit := (isFactor_unit unit).isBounded
  have hradius {c : Float} (hc : IsBounded 0 c) :
      IsBounded (a + 10) (c * s.scale * unit.factor) := by
    have hproduct := hc.mul hs (by omega)
    rw [zero_add] at hproduct
    exact hproduct.mul hunit ha
  obtain ⟨kind, scale⟩ := s
  cases kind with
  | box => exact hs.mul hunit ha
  | sphere => exact hradius (isBounded_of_ofFloat? (by decide))
  | cylinder => exact hradius (isBounded_of_ofFloat? (by decide))

theorem hasPlainLength_of_isBounded (hs : IsBounded 20 s.scale) (unit : LengthUnit) :
    HasPlainLength unit s := by
  have hlength := isBounded_leadingLength unit hs (by decide)
  obtain ⟨h, hh⟩ := Int.eq_ofNat_of_zero_le hlength.hundredths_nonneg
  refine ⟨h, ?_, hh⟩
  have hle := hlength.hundredths_le
  rw [hh] at hle
  rw [mostHundredths]
  omega

theorem isBounded_of_le_million {x : Float} (hfinite : x.isFinite) (hpos : 0.0 < x)
    (hle : x ≤ 1000000.0) : IsBounded 20 x :=
  have hmillion : IsBounded 20 1000000.0 := isBounded_of_ofFloat? (by decide)
  hmillion.of_le hfinite ((zero_lt_iff hfinite).1 hpos).le hle

theorem isBounded_of_le_hundredThousand {x : Float} (hvalid : Solid.validScale x)
    (hle : x ≤ 100000.0) : IsBounded 17 x :=
  have ⟨hfinite, hpos⟩ := validScale_iff.1 hvalid
  have hmost : IsBounded 17 100000.0 := isBounded_of_ofFloat? (by decide)
  hmost.of_le hfinite hpos.le hle

theorem isOrdinary_settledScale (unit : LengthUnit) (kind : Kind) {h : ℕ} (hpos : 1 ≤ h)
    (hle : h ≤ mostHundredths) : IsOrdinary ⟨kind, settledScale unit kind h⟩ :=
  have hnear := isNear_settledScale unit kind hpos hle
  ⟨hnear.validScale (by decide), (hnear.isBounded (by decide)).mono (by decide)⟩

end Settles

/-! ### Reading a whole script -/

/-- The order in which solids are read: a scan lists boxes, then spheres, then cylinders. -/
def inReadingOrder (style : Style) (solids : List Solid) : List Solid :=
  match style with
  | .solid => Kind.all.flatMap fun kind => solids.filter (·.kind = kind)
  | .shell => solids

theorem mem_inReadingOrder {style : Style} {solids : List Solid} {s : Solid} :
    s ∈ inReadingOrder style solids ↔ s ∈ solids := by
  cases style with
  | solid =>
    have hall : s.kind ∈ Kind.all := by cases s.kind <;> decide
    simp [inReadingOrder, hall]
  | shell => rfl

theorem filter_inReadingOrder (kind : Kind) (solids : List Solid) :
    (inReadingOrder .solid solids).filter (·.kind = kind) = solids.filter (·.kind = kind) := by
  have hother {j k : Kind} (hne : j ≠ k) :
      (solids.filter (·.kind = j)).filter (·.kind = k) = [] := by
    rw [List.filter_filter, List.filter_eq_nil_iff]
    intro s _
    simp only [Bool.and_eq_true, decide_eq_true_iff]
    rintro ⟨rfl, rfl⟩
    exact hne rfl
  have hsame : (solids.filter (·.kind = kind)).filter (·.kind = kind) =
      solids.filter (·.kind = kind) := by
    rw [List.filter_filter]
    simp
  cases kind <;> simp only [inReadingOrder, Kind.all, List.flatMap_cons, List.flatMap_nil,
    List.filter_append, List.append_nil] <;>
    simp [hsame, hother]

/-- What is in reading order stays so. -/
theorem inReadingOrder_inReadingOrder (style : Style) (solids : List Solid) :
    inReadingOrder style (inReadingOrder style solids) = inReadingOrder style solids := by
  cases style with
  | solid =>
    refine List.flatMap_congr fun kind _ => ?_
    exact filter_inReadingOrder kind solids
  | shell => rfl

namespace Script

theorem spec_of_solidOfLiteral? {factor : Float} {s t : Solid}
    (h : solidOfLiteral? factor s = some t) : t.kind = s.kind ∧ Solid.validScale t.scale := by
  obtain ⟨length, -, hlength⟩ := Option.bind_eq_some_iff.1 h
  rw [solidOfLength?, Option.ite_none_right_eq_some] at hlength
  obtain ⟨hvalid, hsolid⟩ := hlength
  cases hsolid
  exact ⟨rfl, hvalid⟩

theorem not_mem_lengthText {x : Float} (h : 0 ≤ hundredths x) : '-' ∉ lengthText x := by
  intro hmem
  have hplain := (isLiteral_text (Decimal.ofHundredths (hundredths x).natAbs)).figures '-'
  simp only [lengthText, lengthValue, Value.ofHundredths, Value.render,
    decide_eq_false h.not_gt, if_neg Bool.false_ne_true] at hmem
  exact absurd (hplain (by simpa using hmem)) (by decide)

/-- In millimetres a scan of bare solids finds of a written solid what a reader finds. -/
theorem filter_scannedIn {p : Parameters} (hstyle : p.style = .solid)
    (hunit : p.unit = .millimeters) (kind : Kind) {s : Solid}
    (hplain : ∀ x ∈ shownLengths p.unit.factor s, 0 ≤ hundredths x) :
    (scannedIn p kind s).filter (fun s => Solid.validScale s.scale) =
      if s.kind = kind then (solidOfLiteral? p.unit.factor s).toList else [] := by
  have hfactor : p.unit.factor = 1.0 := by rw [hunit, LengthUnit.factor]
  have hread : (lengthValue (leadingLength p.unit.factor s)).toFloat? =
      some (readBack (leadingLength p.unit.factor s)) := rfl
  by_cases hkind : s.kind = kind
  · have hscanned : scanned? s.kind (leadingLength p.unit.factor s) (shownLengths p.unit.factor s) =
        some ⟨s.kind, scaleOfLength s.kind (readBack (leadingLength p.unit.factor s))⟩ :=
      if_pos fun x hx => not_mem_lengthText (hplain x hx)
    simp only [scannedIn, hstyle, if_pos hkind, hscanned, solidOfLiteral?, hread, Option.bind_some,
      solidOfLength?, Option.toList_some]
    generalize readBack (leadingLength p.unit.factor s) = length
    rw [hfactor, Double.div_one]
    by_cases hvalid : Solid.validScale (scaleOfLength s.kind length)
    · simp [hvalid]
    · simp [hvalid]
  · simp only [scannedIn, hstyle, if_neg hkind, List.filter_nil]

end Script

/-- What a scan takes from the bare call of a solid. -/
def rescanned (unit : LengthUnit) (s : Solid) : Solid :=
  ⟨s.kind, scaleOfLength s.kind (readBack (leadingLength unit.factor s))⟩

/-- A scan of bare solids that are written without a minus finds each of them. -/
theorem scan_write_eq_map {p : Parameters} (hstyle : p.style = .solid) {solids : List Solid}
    (hplain : ∀ s ∈ solids, ∀ x ∈ shownLengths p.unit.factor s, 0 ≤ hundredths x) :
    scan (write p solids) = (inReadingOrder .solid solids).map (rescanned p.unit) := by
  rw [scan_write_eq_flatMap, inReadingOrder, List.map_flatMap]
  refine List.flatMap_congr fun kind _ => ?_
  induction solids with
  | nil => rfl
  | cons s rest ih =>
    obtain ⟨hs, hrest⟩ := List.forall_mem_cons.1 hplain
    have hscanned : scannedIn p kind s =
        if s.kind = kind then [rescanned p.unit s] else [] := by
      simp only [scannedIn, hstyle, scanned?, if_pos fun x hx => not_mem_lengthText (hs x hx),
        Option.toList_some, rescanned]
    rw [List.flatMap_cons, ih hrest, hscanned, List.filter_cons]
    by_cases hkind : s.kind = kind <;> simp [hkind]

/-- **What is found in the script of some solids**: each solid as its literal gives it, in reading
order. -/
theorem filter_readSolids_write {p : Parameters}
    (hunit : p.style = .solid → p.unit = .millimeters) {solids : List Solid}
    (hplain : ∀ s ∈ solids, ∀ x ∈ shownLengths p.unit.factor s, 0 ≤ hundredths x) :
    (Workspace.readSolids p (write p solids)).filter (fun s => Solid.validScale s.scale) =
      inReadingOrder p.style (solids.filterMap (solidOfLiteral? p.unit.factor)) := by
  cases hstyle : p.style with
  | solid =>
    simp only [Workspace.readSolids, hstyle, inReadingOrder]
    rw [scan_write_eq_flatMap, List.filter_flatMap]
    refine List.flatMap_congr fun kind _ => ?_
    rw [List.filter_flatMap, List.filterMap_eq_flatMap_toList, List.filter_flatMap]
    refine List.flatMap_congr fun s hs => ?_
    rw [filter_scannedIn hstyle (hunit hstyle) kind (hplain s hs)]
    cases hliteral : solidOfLiteral? p.unit.factor s with
    | none => simp
    | some t =>
      rw [← (spec_of_solidOfLiteral? hliteral).1]
      by_cases hkind : t.kind = kind
      · simp [hkind]
      · simp [hkind]
  | shell =>
    simp only [Workspace.readSolids, hstyle, inReadingOrder]
    rw [read_write_eq_filterMap, List.filter_eq_self]
    intro t ht
    obtain ⟨s, -, hs⟩ := List.mem_filterMap.1 ht
    exact (spec_of_solidOfLiteral? hs).2

/-! ### There and back -/

namespace Workspace

/-- Writing the scene as a script, and reading it back from the text of the script. -/
def cycle (w : Workspace) : Workspace :=
  let written := (w.step .sync).workspace
  (written.step (.edit written.script.text)).workspace

variable {w : Workspace}

@[simp] theorem parameters_cycle (w : Workspace) : w.cycle.parameters = w.parameters := rfl

theorem shapes_cycle (w : Workspace) :
    w.cycle.scene.shapes = ((readSolids w.parameters (write w.parameters w.scene.solids)).filter
      fun s => Solid.validScale s.scale).map .atOrigin := rfl

theorem solids_cycle (w : Workspace) :
    w.cycle.scene.solids = (readSolids w.parameters (write w.parameters w.scene.solids)).filter
      fun s => Solid.validScale s.scale := by
  rw [Scene.solids, shapes_cycle, List.map_map]
  exact List.map_id _

/-- **A second time there and back changes nothing.**  In the shell style, and in the solid style
with lengths in millimetres, the shapes of a scene whose scales are valid and at most a million are
after two cycles, bit for bit, what they are after one. -/
theorem shapes_cycle_cycle (hunit : w.parameters.style = .solid → w.parameters.unit = .millimeters)
    (hscale : ∀ s ∈ w.scene.shapes, s.scale.isFinite ∧ 0.0 < s.scale ∧ s.scale ≤ 1000000.0) :
    w.cycle.cycle.scene.shapes = w.cycle.scene.shapes := by
  have hbounded : ∀ s ∈ w.scene.solids, IsOrdinary s ∧ HasPlainLength w.parameters.unit s := by
    intro s hs
    obtain ⟨shape, hshape, rfl⟩ := List.mem_map.1 hs
    obtain ⟨hfinite, hpos, hle⟩ := hscale shape hshape
    have hbounded := isBounded_of_le_million hfinite hpos hle
    exact ⟨⟨validScale_iff.2 ⟨hfinite, (zero_lt_iff hfinite).1 hpos⟩, hbounded.mono (by decide)⟩,
      hasPlainLength_of_isBounded hbounded _⟩
  have hfirst : w.cycle.scene.solids = inReadingOrder w.parameters.style
      (w.scene.solids.filterMap (solidOfLiteral? w.parameters.unit.factor)) := by
    rw [solids_cycle]
    exact filter_readSolids_write hunit fun s hs => (hbounded s hs).1.hundredths_nonneg _
  -- What the first cycle leaves is ordinary and kept by the second.
  have hsettled : ∀ t ∈ w.cycle.scene.solids,
      IsOrdinary t ∧ solidOfLiteral? w.parameters.unit.factor t = some t := by
    intro t ht
    rw [hfirst, mem_inReadingOrder] at ht
    obtain ⟨s, hs, hliteral⟩ := List.mem_filterMap.1 ht
    obtain ⟨hkept, h, hpos, hle, hscale⟩ := settles (hbounded s hs).2 hliteral
    have hordinary := isOrdinary_settledScale w.parameters.unit t.kind hpos hle
    rw [← hscale] at hordinary
    exact ⟨hordinary, hkept⟩
  have hsecond : w.cycle.cycle.scene.solids = w.cycle.scene.solids := by
    have hkept : w.cycle.scene.solids.filterMap (solidOfLiteral? w.parameters.unit.factor) =
        w.cycle.scene.solids :=
      (List.filterMap_congr fun t ht => (hsettled t ht).2).trans List.filterMap_some
    rw [solids_cycle, parameters_cycle,
      filter_readSolids_write hunit fun t ht => (hsettled t ht).1.hundredths_nonneg _, hkept,
      hfirst, inReadingOrder_inReadingOrder]
  rw [shapes_cycle w.cycle, ← solids_cycle, hsecond, solids_cycle, ← shapes_cycle]

/-- A small sphere, a large box and a tiny cylinder, hollow and in metres. -/
def hollowScene : Workspace :=
  ofScene ⟨[⟨⟨.sphere, 0.3⟩, .zero, none⟩, ⟨⟨.box, 999999.9⟩, .zero, none⟩,
    ⟨⟨.cylinder, 1e-9⟩, .zero, none⟩], none, none⟩ ⟨.meters, 0.1, 32, .shell⟩

theorem shapes_cycle_cycle_hollowScene :
    ((hollowScene.parameters.style = .solid → hollowScene.parameters.unit = .millimeters) ∧
      ∀ s ∈ hollowScene.scene.shapes, s.scale.isFinite ∧ 0.0 < s.scale ∧ s.scale ≤ 1000000.0) ∧
      hollowScene.cycle.cycle.scene.shapes = hollowScene.cycle.scene.shapes :=
  have hunit : hollowScene.parameters.style = .solid →
      hollowScene.parameters.unit = .millimeters := nofun
  have hscale : ∀ s ∈ hollowScene.scene.shapes,
      s.scale.isFinite ∧ 0.0 < s.scale ∧ s.scale ≤ 1000000.0 := by decide +kernel
  ⟨⟨hunit, hscale⟩, shapes_cycle_cycle hunit hscale⟩

end Workspace

end SolidScene
