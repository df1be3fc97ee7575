import SolidScene.Proofs.Double.Sum

/-!
# Doubles and infinities

A double that is a number stands for a rational number or for one of two infinities (`extended`).
Such doubles are compared by what they stand for (`le_iff_extended`, `lt_iff_extended`,
`beq_iff_extended`), so they form a chain in which nothing but the zeros of both signs is level.
What is beyond the range of doubles is packed as the infinity on its side (`extended_pack`);
therefore adding to a finite double keeps the order, infinities included (`float_add_le_add_left`).
-/

namespace SolidScene.Double

open Float.Model
open Float.Model.UnpackedFloat (Sign)

/-! ### Rational numbers between two infinities -/

/-- The rational numbers with an infinity at either end. -/
abbrev ExtendedRat := WithBot (WithTop ℚ)

/-- A rational number among the extended ones. -/
def ofRat (q : ℚ) : ExtendedRat := ((q : WithTop ℚ) : WithBot (WithTop ℚ))

section Chain

variable {p q : ℚ}

@[simp] theorem ofRat_le_ofRat : ofRat p ≤ ofRat q ↔ p ≤ q :=
  WithBot.coe_le_coe.trans WithTop.coe_le_coe

@[simp] theorem ofRat_lt_ofRat : ofRat p < ofRat q ↔ p < q :=
  WithBot.coe_lt_coe.trans WithTop.coe_lt_coe

theorem bot_lt_ofRat (q : ℚ) : ⊥ < ofRat q := WithBot.bot_lt_coe _

theorem ofRat_lt_top (q : ℚ) : ofRat q < ⊤ := WithBot.coe_lt_coe.2 (WithTop.coe_lt_top q)

theorem compare_ofRat (p q : ℚ) : compare (ofRat p) (ofRat q) = compare p q := by
  rcases lt_trichotomy p q with h | rfl | h
  · rw [compare_lt_iff_lt.2 h, compare_lt_iff_lt.2 (ofRat_lt_ofRat.2 h)]
  · rw [compare_eq_iff_eq.2 rfl, compare_eq_iff_eq.2 rfl]
  · rw [compare_gt_iff_gt.2 h, compare_gt_iff_gt.2 (ofRat_lt_ofRat.2 h)]

/-- A rational number where doubles reach it, and the infinity on its side where they do not. -/
def clip (q : ℚ) : ExtendedRat :=
  if 2 ^ (1024 : ℤ) ≤ q then ⊤ else if q ≤ -2 ^ (1024 : ℤ) then ⊥ else ofRat q

theorem clip_of_abs_lt (h : |q| < 2 ^ (1024 : ℤ)) : clip q = ofRat q := by
  rw [abs_lt] at h
  rw [clip, if_neg (not_le.2 h.2), if_neg (not_le.2 h.1)]

theorem clip_of_le (h : 2 ^ (1024 : ℤ) ≤ q) : clip q = ⊤ := if_pos h

theorem clip_of_le_neg (h : q ≤ -2 ^ (1024 : ℤ)) : clip q = ⊥ := by
  have hlt : q < 2 ^ (1024 : ℤ) := h.trans_lt (neg_lt_self (two_zpow_pos 1024))
  rw [clip, if_neg (not_le.2 hlt), if_pos h]

theorem clip_mono (h : p ≤ q) : clip p ≤ clip q := by
  rcases le_or_gt (2 ^ (1024 : ℤ)) q with hq | hq
  · rw [clip_of_le hq]
    exact le_top
  rcases le_or_gt p (-2 ^ (1024 : ℤ)) with hp | hp
  · rw [clip_of_le_neg hp]
    exact bot_le
  · rw [clip_of_abs_lt (abs_lt.2 ⟨hp, h.trans_lt hq⟩),
      clip_of_abs_lt (abs_lt.2 ⟨hp.trans_le h, hq⟩)]
    exact ofRat_le_ofRat.2 h

end Chain

/-! ### What a double stands for -/

/-- A double that is a number, finite or not. -/
def IsNumber (x : Float) : Prop := x.isNaN = false

instance (x : Float) : Decidable (IsNumber x) := inferInstanceAs (Decidable (x.isNaN = false))

/-- The extended number that an unpacked double stands for; zero where it is not a number. -/
def unpackedExtended : UnpackedFloat → ExtendedRat
  | .infinity .positive => ⊤
  | .infinity .negative => ⊥
  | u => ofRat (unpackedValue u)

/-- The extended number that a double stands for; zero where it is not a number. -/
def extended (x : Float) : ExtendedRat := unpackedExtended x.toModel.unpack

/-- An unpacked number, finite or not. -/
inductive IsExtended : UnpackedFloat → Prop
  | reduced {u : UnpackedFloat} (h : IsReduced u) : IsExtended u
  | infinity (s : Sign) : IsExtended (.infinity s)

section Unpacked

variable {u v : UnpackedFloat}

theorem IsReduced.unpackedExtended_eq (h : IsReduced u) :
    unpackedExtended u = ofRat (unpackedValue u) := by
  cases h <;> rfl

/-- An infinity is above all finite numbers, or below all of them. -/
theorem IsReduced.compare_infinity (h : IsReduced u) (s : Sign) :
    u.compare (.infinity s) = some (compare (unpackedExtended u) (unpackedExtended (.infinity s))) ∧
      (UnpackedFloat.infinity s).compare u =
        some (compare (unpackedExtended (.infinity s)) (unpackedExtended u)) := by
  rw [h.unpackedExtended_eq]
  cases s with
  | positive =>
    rw [show unpackedExtended (.infinity .positive) = ⊤ from rfl,
      compare_lt_iff_lt.2 (ofRat_lt_top _), compare_gt_iff_gt.2 (ofRat_lt_top _)]
    cases h <;> exact ⟨rfl, rfl⟩
  | negative =>
    rw [show unpackedExtended (.infinity .negative) = ⊥ from rfl,
      compare_gt_iff_gt.2 (bot_lt_ofRat _), compare_lt_iff_lt.2 (bot_lt_ofRat _)]
    cases h <;> exact ⟨rfl, rfl⟩

/-- Unpacked numbers are compared by what they stand for. -/
theorem IsExtended.compare_eq (hu : IsExtended u) (hv : IsExtended v) :
    u.compare v = some (compare (unpackedExtended u) (unpackedExtended v)) := by
  cases hu with
  | reduced hu =>
    cases hv with
    | reduced hv =>
      rw [hu.unpackedExtended_eq, hv.unpackedExtended_eq, compare_ofRat, hu.compare_eq hv]
    | infinity t => exact (hu.compare_infinity t).1
  | infinity s =>
    cases hv with
    | reduced hv => exact (hv.compare_infinity s).2
    | infinity t => cases s <;> cases t <;> rfl

end Unpacked

section Numbers

variable {x y z : Float}

theorem isNumber_of_isFinite (hx : x.isFinite) : IsNumber x := by
  have hreduced := isReduced_unpack hx
  change x.toModel.unpack.isNaN = false
  generalize x.toModel.unpack = u at hreduced ⊢
  cases hreduced <;> rfl

theorem extended_of_isFinite (hx : x.isFinite) : extended x = ofRat (value x) :=
  (isReduced_unpack hx).unpackedExtended_eq

/-- A number is finite or an infinity. -/
theorem IsNumber.isFinite_or (hx : IsNumber x) :
    x.isFinite ∨ ∃ s, x.toModel.unpack = .infinity s := by
  replace hx : x.toModel.unpack.isNaN = false := hx
  change x.toModel.unpack.isFinite = true ∨ _
  cases h : x.toModel.unpack with
  | infinity s => exact .inr ⟨s, rfl⟩
  | notANumber =>
    rw [h] at hx
    cases hx
  | _ => exact .inl rfl

theorem IsNumber.isExtended (hx : IsNumber x) : IsExtended x.toModel.unpack := by
  rcases hx.isFinite_or with hx | ⟨s, hs⟩
  · exact .reduced (isReduced_unpack hx)
  · exact hs ▸ .infinity s

theorem compare_extended (hx : IsNumber x) (hy : IsNumber y) :
    x.toModel.unpack.compare y.toModel.unpack = some (compare (extended x) (extended y)) :=
  hx.isExtended.compare_eq hy.isExtended

/-! ### The chain of numbers -/

theorem le_iff_extended (hx : IsNumber x) (hy : IsNumber y) : x ≤ y ↔ extended x ≤ extended y := by
  rw [show x ≤ y ↔ (x.toModel.unpack.compare y.toModel.unpack).any (·.isLE) = true from
    decide_eq_true_iff, compare_extended hx hy, Option.any_some, ← compare_le_iff_le]
  cases compare (extended x) (extended y) <;> decide

theorem lt_iff_extended (hx : IsNumber x) (hy : IsNumber y) : x < y ↔ extended x < extended y := by
  rw [show x < y ↔ (x.toModel.unpack.compare y.toModel.unpack == some .lt) = true from
    decide_eq_true_iff, compare_extended hx hy, beq_iff_eq, Option.some_inj, compare_lt_iff_lt]

theorem beq_iff_extended (hx : IsNumber x) (hy : IsNumber y) :
    (x == y) = true ↔ extended x = extended y := by
  rw [show (x == y) = (x.toModel.unpack.compare y.toModel.unpack == some .eq) from rfl,
    compare_extended hx hy, beq_iff_eq, Option.some_inj, compare_eq_iff_eq]

/-- What can be compared at all is a number. -/
theorem isNumber_of_compare_eq {o : Ordering}
    (h : x.toModel.unpack.compare y.toModel.unpack = some o) : IsNumber x ∧ IsNumber y := by
  change x.toModel.unpack.isNaN = false ∧ y.toModel.unpack.isNaN = false
  generalize x.toModel.unpack = u at h ⊢
  generalize y.toModel.unpack = v at h ⊢
  cases u with
  | notANumber => cases h
  | infinity s =>
    cases v with
    | notANumber => cases h
    | _ => exact ⟨rfl, rfl⟩
  | _ =>
    cases v with
    | notANumber => cases h
    | _ => exact ⟨rfl, rfl⟩

theorem isNumber_of_le (h : x ≤ y) : IsNumber x ∧ IsNumber y := by
  replace h : (x.toModel.unpack.compare y.toModel.unpack).any (·.isLE) = true := of_decide_eq_true h
  obtain ⟨o, ho, -⟩ := (Option.any_eq_true _ _).1 h
  exact isNumber_of_compare_eq ho

theorem isNumber_of_beq (h : (x == y) = true) : IsNumber x ∧ IsNumber y := by
  replace h : (x.toModel.unpack.compare y.toModel.unpack == some .eq) = true := h
  exact isNumber_of_compare_eq (beq_iff_eq.1 h)

theorem extended_le_of_le (h : x ≤ y) : extended x ≤ extended y :=
  (le_iff_extended (isNumber_of_le h).1 (isNumber_of_le h).2).1 h

theorem float_le_refl (hx : IsNumber x) : x ≤ x := (le_iff_extended hx hx).2 le_rfl

theorem float_le_trans (hxy : x ≤ y) (hyz : y ≤ z) : x ≤ z :=
  (le_iff_extended (isNumber_of_le hxy).1 (isNumber_of_le hyz).2).2
    ((extended_le_of_le hxy).trans (extended_le_of_le hyz))

theorem float_beq_of_le_of_le (hxy : x ≤ y) (hyx : y ≤ x) : (x == y) = true :=
  (beq_iff_extended (isNumber_of_le hxy).1 (isNumber_of_le hxy).2).2
    ((extended_le_of_le hxy).antisymm (extended_le_of_le hyx))

theorem float_beq_refl (hx : IsNumber x) : (x == x) = true := (beq_iff_extended hx hx).2 rfl

theorem float_beq_trans (hxy : (x == y) = true) (hyz : (y == z) = true) : (x == z) = true := by
  obtain ⟨hx, hy⟩ := isNumber_of_beq hxy
  obtain ⟨-, hz⟩ := isNumber_of_beq hyz
  rw [beq_iff_extended hx hy] at hxy
  rw [beq_iff_extended hy hz] at hyz
  exact (beq_iff_extended hx hz).2 (hxy.trans hyz)

theorem float_le_of_beq (h : (x == y) = true) : x ≤ y ∧ y ≤ x := by
  obtain ⟨hx, hy⟩ := isNumber_of_beq h
  rw [beq_iff_extended hx hy] at h
  rw [le_iff_extended hx hy, le_iff_extended hy hx]
  exact ⟨h.le, h.ge⟩

theorem float_not_lt (hx : IsNumber x) (hy : IsNumber y) : ¬ x < y ↔ y ≤ x := by
  rw [lt_iff_extended hx hy, le_iff_extended hy hx, not_lt]

/-! ### The infinities -/

theorem eq_of_unpack_eq (h : x.toModel.unpack = y.toModel.unpack) : x = y := by
  have hpack (z : Float) : z = Float.ofModel (.pack z.toModel.unpack) := by rw [model_pack_unpack]
  rw [hpack x, h, ← hpack y]

/-- Only one number stands above all others. -/
theorem eq_infinity_of_extended_eq_top (hx : IsNumber x) (h : extended x = ⊤) : x = 1.0 / 0.0 := by
  rcases hx.isFinite_or with hx | ⟨s, hs⟩
  · rw [extended_of_isFinite hx] at h
    exact absurd h (ofRat_lt_top _).ne
  · cases s with
    | positive => exact eq_of_unpack_eq (hs.trans (by rfl))
    | negative =>
      rw [extended, hs] at h
      cases h

theorem eq_neg_infinity_of_extended_eq_bot (hx : IsNumber x) (h : extended x = ⊥) :
    x = -(1.0 / 0.0) := by
  rcases hx.isFinite_or with hx | ⟨s, hs⟩
  · rw [extended_of_isFinite hx] at h
    exact absurd h (bot_lt_ofRat _).ne'
  · cases s with
    | negative => exact eq_of_unpack_eq (hs.trans (by rfl))
    | positive =>
      rw [extended, hs] at h
      cases h

end Numbers

/-! ### Rounded results -/

section Results

variable {c x y : Float} {s : Sign}

/-- A reduced form is packed as a number: itself in range, and beyond it an infinity. -/
theorem IsReduced.extended_pack {u : UnpackedFloat} (h : IsReduced u) :
    IsNumber (.ofModel (.pack u)) ∧ extended (.ofModel (.pack u)) = clip (unpackedValue u) := by
  rcases lt_or_ge |unpackedValue u| (2 ^ (1024 : ℤ)) with hrange | hrange
  · obtain ⟨hfinite, hvalue⟩ := h.pack_spec hrange
    rw [clip_of_abs_lt hrange, ← hvalue]
    exact ⟨isNumber_of_isFinite hfinite, extended_of_isFinite hfinite⟩
  · cases h with
    | zero s =>
      rw [unpackedValue_zero, abs_zero] at hrange
      exact absurd hrange (not_le.2 (two_zpow_pos 1024))
    | @finite s m e h hm =>
      have hmagnitude : (0 : ℚ) < m * 2 ^ e := by positivity
      rw [unpackedValue_finite, abs_mul, abs_signFactor, one_mul, abs_of_pos hmagnitude] at hrange
      have hpack : Float.Model.pack (.finite s m e hm) = .pack (.infinity s) := by
        simp only [Float.Model.pack, pack_of_two_zpow_le hm h hrange]
      have hunpack : (Float.ofModel (.pack (.infinity s))).toModel.unpack = .infinity s :=
        unpack_pack_infinity s
      rw [hpack, unpackedValue_finite, extended, hunpack]
      refine ⟨by cases s <;> decide, ?_⟩
      cases s with
      | positive =>
        rw [signFactor_positive, one_mul, clip_of_le hrange]
        rfl
      | negative =>
        rw [signFactor_negative, neg_one_mul, clip_of_le_neg (neg_le_neg hrange)]
        rfl

theorem extended_add (hx : x.isFinite) (hy : y.isFinite) :
    IsNumber (x + y) ∧ extended (x + y) = clip (nearest (value x + value y)) := by
  obtain ⟨hreduced, hvalue⟩ := (isReduced_unpack hx).add_spec (isReduced_unpack hy)
  have hpack := hreduced.extended_pack
  rwa [hvalue] at hpack

theorem extended_mul (hx : x.isFinite) (hy : y.isFinite) :
    IsNumber (x * y) ∧ extended (x * y) = clip (nearest (value x * value y)) := by
  obtain ⟨hreduced, hvalue⟩ := (isReduced_unpack hx).mul_spec (isReduced_unpack hy)
  have hpack := hreduced.extended_pack
  rwa [hvalue] at hpack

/-- An infinity is left by whatever finite is added to it. -/
theorem unpack_add_infinity (hc : c.isFinite) (hx : x.toModel.unpack = .infinity s) :
    (c + x).toModel.unpack = .infinity s := by
  have hsum : UnpackedFloat.add .binary64 c.toModel.unpack (.infinity s) = .infinity s := by
    have hc' := isReduced_unpack hc
    generalize c.toModel.unpack = u at hc'
    cases hc' <;> rfl
  change (Float.Model.pack
    (UnpackedFloat.add .binary64 c.toModel.unpack x.toModel.unpack)).unpack = _
  rw [hx, hsum, unpack_pack_infinity]

/-- Positive infinity is left by whatever is added to it, if the sum is a number. -/
theorem unpack_infinity_add (hx : x.toModel.unpack = .infinity .positive) (h : IsNumber (x + y)) :
    (x + y).toModel.unpack = .infinity .positive := by
  have hsum (v : UnpackedFloat) :
      UnpackedFloat.add .binary64 (.infinity .positive) v = .infinity .positive ∨
        UnpackedFloat.add .binary64 (.infinity .positive) v = .notANumber := by
    cases v with
    | infinity t =>
      cases t with
      | positive => exact .inl rfl
      | negative => exact .inr rfl
    | notANumber => exact .inr rfl
    | _ => exact .inl rfl
  have hunpack : (x + y).toModel.unpack =
      (Float.Model.pack
        (UnpackedFloat.add .binary64 x.toModel.unpack y.toModel.unpack)).unpack := rfl
  rw [hx] at hunpack
  rcases hsum y.toModel.unpack with hy | hy
  · rw [hunpack, hy, unpack_pack_infinity]
  · rw [hy, unpack_pack_notANumber] at hunpack
    replace h : (x + y).toModel.unpack.isNaN = false := h
    rw [hunpack] at h
    cases h

theorem isNumber_of_unpack_infinity (hx : x.toModel.unpack = .infinity s) : IsNumber x := by
  change x.toModel.unpack.isNaN = false
  rw [hx]
  rfl

theorem isNumber_add (hc : c.isFinite) (hx : IsNumber x) : IsNumber (c + x) := by
  rcases hx.isFinite_or with hx | ⟨s, hs⟩
  · exact (extended_add hc hx).1
  · exact isNumber_of_unpack_infinity (unpack_add_infinity hc hs)

/-- **Adding to a finite double keeps the order**, beyond the range of doubles too. -/
theorem float_add_le_add_left (hc : c.isFinite) (h : x ≤ y) : c + x ≤ c + y := by
  obtain ⟨hx, hy⟩ := isNumber_of_le h
  have hxy := extended_le_of_le h
  rw [le_iff_extended (isNumber_add hc hx) (isNumber_add hc hy)]
  have hsame {z : Float} {s : Sign} (hz : z.toModel.unpack = .infinity s) :
      extended (c + z) = extended z := by rw [extended, extended, unpack_add_infinity hc hz, hz]
  rcases hx.isFinite_or with hx' | ⟨s, hs⟩
  · rcases hy.isFinite_or with hy' | ⟨t, ht⟩
    · rw [extended_of_isFinite hx', extended_of_isFinite hy', ofRat_le_ofRat] at hxy
      rw [(extended_add hc hx').2, (extended_add hc hy').2]
      exact clip_mono (nearest_mono (by linarith))
    · rw [hsame ht]
      rw [extended_of_isFinite hx'] at hxy
      cases t with
      | positive => exact (show extended y = ⊤ by rw [extended, ht]; rfl) ▸ le_top
      | negative =>
        rw [extended, ht] at hxy
        exact absurd hxy (not_le.2 (bot_lt_ofRat _))
  · rw [hsame hs]
    cases s with
    | negative => exact (show extended x = ⊥ by rw [extended, hs]; rfl) ▸ bot_le
    | positive =>
      have htop : extended x = ⊤ := by rw [extended, hs]; rfl
      rw [htop, top_le_iff] at hxy
      rcases hy.isFinite_or with hy' | ⟨t, ht⟩
      · rw [extended_of_isFinite hy'] at hxy
        exact absurd hxy (ofRat_lt_top _).ne
      · rw [hsame ht, htop, hxy]

/-! ### Signs -/

theorem extended_zero : IsNumber 0.0 ∧ extended 0.0 = ofRat 0 := by decide

theorem zero_le_iff_extended (hx : IsNumber x) : 0.0 ≤ x ↔ ofRat 0 ≤ extended x := by
  rw [le_iff_extended extended_zero.1 hx, extended_zero.2]

theorem zero_le_iff (hx : x.isFinite) : 0.0 ≤ x ↔ 0 ≤ value x := by
  rw [zero_le_iff_extended (isNumber_of_isFinite hx), extended_of_isFinite hx, ofRat_le_ofRat]

/-- A number from zero on is finite or positive infinity. -/
theorem isFinite_or_eq_infinity (h : 0.0 ≤ x) : x.isFinite ∧ 0 ≤ value x ∨ x = 1.0 / 0.0 := by
  have hx := (isNumber_of_le h).2
  rcases hx.isFinite_or with hfinite | ⟨s, hs⟩
  · exact .inl ⟨hfinite, (zero_le_iff hfinite).1 h⟩
  · rw [zero_le_iff_extended hx, extended, hs] at h
    cases s with
    | positive => exact .inr (eq_of_unpack_eq (hs.trans (by rfl)))
    | negative => exact absurd h (not_le.2 (bot_lt_ofRat 0))

theorem float_neg_le_self (h : 0.0 ≤ x) : -x ≤ x := by
  rcases isFinite_or_eq_infinity h with ⟨hfinite, hvalue⟩ | rfl
  · obtain ⟨hneg, hnegvalue⟩ := neg_spec hfinite
    rw [le_iff hneg hfinite, hnegvalue]
    linarith
  · decide

/-- A difference that is a number is zero or more where the greater number comes first. -/
theorem float_sub_nonneg (h : y ≤ x) (hnumber : IsNumber (x - y)) : 0.0 ≤ x - y := by
  obtain ⟨hy, hx⟩ := isNumber_of_le h
  have hle := extended_le_of_le h
  rw [zero_le_iff_extended hnumber]
  rw [float_sub_eq_add_neg] at hnumber ⊢
  have htop {z : Float} (hz : z.toModel.unpack = .infinity .positive) : ofRat 0 ≤ extended z := by
    rw [extended, hz]
    exact le_top
  rcases hx.isFinite_or with hx' | ⟨s, hs⟩
  · rcases hy.isFinite_or with hy' | ⟨t, ht⟩
    · obtain ⟨hneg, hnegvalue⟩ := neg_spec hy'
      rw [extended_of_isFinite hx', extended_of_isFinite hy', ofRat_le_ofRat] at hle
      rw [(extended_add hx' hneg).2, hnegvalue, ← clip_of_abs_lt (q := 0) (by simp)]
      exact clip_mono (nearest_nonneg (by linarith))
    · cases t with
      | negative => exact htop (unpack_add_infinity hx' (by rw [unpack_neg, ht]; rfl))
      | positive =>
        rw [extended_of_isFinite hx', extended, ht] at hle
        exact absurd hle (not_le.2 (ofRat_lt_top _))
  · cases s with
    | positive => exact htop (unpack_infinity_add hs hnumber)
    | negative =>
      have hbot : extended x = ⊥ := by rw [extended, hs]; rfl
      rw [hbot, le_bot_iff] at hle
      rw [eq_neg_infinity_of_extended_eq_bot hx hbot,
        eq_neg_infinity_of_extended_eq_bot hy hle] at hnumber
      exact absurd hnumber (by decide)

/-- A number from zero on keeps its sign when a finite double above zero multiplies it. -/
theorem float_mul_nonneg (hx : 0.0 ≤ x) (hy : y.isFinite) (hpos : 0 < value y) : 0.0 ≤ x * y := by
  rcases isFinite_or_eq_infinity hx with ⟨hfinite, hvalue⟩ | rfl
  · obtain ⟨hnumber, hproduct⟩ := extended_mul hfinite hy
    rw [zero_le_iff_extended hnumber, hproduct, ← clip_of_abs_lt (q := 0) (by simp)]
    exact clip_mono (nearest_nonneg (mul_nonneg hvalue hpos.le))
  · have hproduct : UnpackedFloat.mul .binary64 (.infinity .positive) y.toModel.unpack =
        .infinity .positive := by
      rw [value] at hpos
      cases hunpack : y.toModel.unpack with
      | finite s m e hm =>
        cases s with
        | positive => rfl
        | negative =>
          have : (0 : ℚ) < m * 2 ^ e := by positivity
          rw [hunpack, unpackedValue_finite, signFactor_negative] at hpos
          linarith
      | _ =>
        rw [hunpack] at hpos
        exact absurd hpos (lt_irrefl 0)
    have hinfinite : (1.0 / 0.0) * y = 1.0 / 0.0 := by
      change Float.ofModel (.pack (UnpackedFloat.mul .binary64 (.infinity .positive)
        y.toModel.unpack)) = _
      rw [hproduct, pack_infinity]
    rwa [hinfinite]

end Results

end SolidScene.Double
