import SolidScene.Proofs.Double.Canonical
import SolidScene.Proofs.Double.Round

/-!
# The numbers that doubles stand for

A finite double stands for a rational number, its `value`.  In unpacked form it is a zero or a
canonical significand under a sign, and such a form is packed and unpacked without loss as long as
its magnitude is below `2 ^ 1024` (`unpack_pack`).  To compare finite doubles is to compare their
values (`lt_iff`, `le_iff`).
-/

namespace SolidScene.Double

open Float.Model
open Float.Model.UnpackedFloat (Sign unpackExponent packComponents)

/-! ### Packing and unpacking -/

section Packing

variable {s : Sign} {m : ℕ} {e : ℤ}

theorem ofNat_exponent_ne {b c : ℕ} (hb : b < 2047) (hc : c ≤ 2047) (h : b ≠ c) :
    BitVec.ofNat 11 b ≠ BitVec.ofNat 11 c := by
  intro heq
  have := congrArg BitVec.toNat heq
  rw [BitVec.toNat_ofNat, BitVec.toNat_ofNat] at this
  omega

/-- A normal number is unpacked as it was packed. -/
theorem unpack_pack_normal (hm : 0 < m) (hlog : m.log2 = 52) (hleast : -1074 ≤ e)
    (hgreatest : e ≤ 971) :
    UnpackedFloat.unpack .binary64 (UnpackedFloat.pack .binary64 (.finite s m e hm)) =
      .finite s m e hm := by
  have hbounds := (Nat.log2_eq_iff hm.ne').1 hlog
  obtain ⟨b, hb⟩ : ∃ b : ℕ, e + 1075 = b := Int.eq_ofNat_of_zero_le (by omega)
  have hbiased : (e + Format.binary64.exponentBias +
      Format.binary64.mantissaBitsWithoutImplicit).toNat = b := by
    change (e + 1023 + 52).toNat = b
    omega
  have hexponent : (BitVec.ofNat 11 b).toNat = b := by
    rw [BitVec.toNat_ofNat, Nat.mod_eq_of_lt (by omega)]
  have hinfinite : BitVec.ofNat 11 b ≠ -1#11 :=
    ofNat_exponent_ne (c := 2047) (by omega) le_rfl (by omega)
  have hzero : BitVec.ofNat 11 b ≠ 0#11 :=
    ofNat_exponent_ne (by omega) (Nat.zero_le _) (by omega)
  have hmantissa : (1#1 ++ BitVec.ofNat 52 m).toNat = m := by
    rw [toNat_one_append, BitVec.toNat_ofNat]
    omega
  have hbits : m.log2 + 1 = Format.binary64.mantissaBits := by
    rw [hlog]
    rfl
  rw [UnpackedFloat.pack, hbiased, if_neg (show ¬ 2 ^ 11 ≤ b + 1 by omega), if_pos hbits,
    UnpackedFloat.unpack]
  simp only [UnpackedFloat.unpackExponent_packComponents,
    UnpackedFloat.unpackMantissa_packComponents, UnpackedFloat.unpackSign_packComponents,
    UnpackedFloat.Sign.ofBitVec_toBitVec, hinfinite, hzero, if_false, hmantissa]
  congr 1
  rw [hexponent]
  change (b : ℤ) - (1023 + 52) = e
  omega

/-- A number below the normal ones is unpacked as it was packed. -/
theorem unpack_pack_subnormal (hm : 0 < m) (hlog : m.log2 < 52) :
    UnpackedFloat.unpack .binary64 (UnpackedFloat.pack .binary64 (.finite s m (-1074) hm)) =
      .finite s m (-1074) hm := by
  have hbound := (Nat.log2_lt hm.ne').1 hlog
  have hmantissa : (BitVec.ofNat 52 m).toNat = m := by
    rw [BitVec.toNat_ofNat, Nat.mod_eq_of_lt hbound]
  have hnonzero : BitVec.ofNat 52 m ≠ 0#52 := by
    intro h
    have := congrArg BitVec.toNat h
    rw [hmantissa, BitVec.toNat_ofNat] at this
    omega
  have hinfinite : 0#11 ≠ -1#11 := by decide
  have hbits : m.log2 + 1 ≠ Format.binary64.mantissaBits := (Nat.succ_lt_succ hlog).ne
  rw [UnpackedFloat.pack, if_neg (by decide), if_neg hbits, UnpackedFloat.unpack]
  simp only [UnpackedFloat.unpackExponent_packComponents,
    UnpackedFloat.unpackMantissa_packComponents, UnpackedFloat.unpackSign_packComponents,
    UnpackedFloat.Sign.ofBitVec_toBitVec, hinfinite, hnonzero, if_false, if_true, hmantissa]
  rfl

/-- What is unpacked as a finite number other than zero is in canonical form and in range. -/
theorem isCanonical_of_unpack_eq {b : BitVec Format.binary64.numBits} {hm : 0 < m}
    (h : UnpackedFloat.unpack .binary64 b = .finite s m e hm) : IsCanonical m e ∧ e ≤ 971 := by
  have hbias : (Format.binary64.exponentBias : ℤ) = 1023 := rfl
  have hwidth : (Format.binary64.mantissaBitsWithoutImplicit : ℤ) = 52 := rfl
  have hexponent : (unpackExponent b).toNat < 2 ^ 11 := (unpackExponent b).isLt
  rw [UnpackedFloat.unpack] at h
  split at h
  · split at h <;> cases h
  · next hinfinite =>
    have hne : (unpackExponent b).toNat ≠ 2047 := fun h => hinfinite (BitVec.eq_of_toNat_eq h)
    split at h
    · next hleast =>
      split at h
      · cases h
      · cases h
        rw [hleast, hbias, hwidth]
        exact ⟨Or.inr ⟨log2_toNat_lt _, rfl⟩, by decide⟩
    · next hpositive =>
      have hzero : (unpackExponent b).toNat ≠ 0 := fun h => hpositive (BitVec.eq_of_toNat_eq h)
      cases h
      rw [hbias, hwidth]
      exact ⟨Or.inl ⟨log2_one_append _, by omega⟩, by omega⟩

end Packing

/-! ### Values -/

/-- A sign as a factor. -/
def signFactor (s : Sign) : ℚ := (s.apply 1 : ℤ)

@[simp] theorem signFactor_positive : signFactor .positive = 1 := rfl

@[simp] theorem signFactor_negative : signFactor .negative = -1 := rfl

@[simp] theorem abs_signFactor (s : Sign) : |signFactor s| = 1 := by cases s <;> simp

theorem signFactor_mul (s t : Sign) : signFactor (s * t) = signFactor s * signFactor t := by
  rw [signFactor, signFactor, signFactor, ← Int.cast_mul]
  cases s <;> cases t <;> rfl

theorem signFactor_div (s t : Sign) : signFactor (s / t) = signFactor s * signFactor t := by
  rw [signFactor, signFactor, signFactor, ← Int.cast_mul]
  cases s <;> cases t <;> rfl

theorem signFactor_div_signFactor (s t : Sign) :
    signFactor s / signFactor t = signFactor s * signFactor t := by
  cases t <;> simp [div_neg]

@[simp] theorem nearest_signFactor_mul (s : Sign) (q : ℚ) :
    nearest (signFactor s * q) = signFactor s * nearest q := by
  cases s <;> simp

/-- The number that an unpacked double stands for; zero where it is infinite or not a number. -/
def unpackedValue : UnpackedFloat → ℚ
  | .finite s m e _ => signFactor s * (m * 2 ^ e)
  | _ => 0

@[simp] theorem unpackedValue_zero (s : Sign) : unpackedValue (.zero s) = 0 := rfl

@[simp] theorem unpackedValue_finite (s : Sign) (m : ℕ) (e : ℤ) (hm : 0 < m) :
    unpackedValue (.finite s m e hm) = signFactor s * (m * 2 ^ e) := rfl

/-- The number that a double stands for; zero where it is infinite or not a number. -/
def value (x : Float) : ℚ := unpackedValue x.toModel.unpack

/-- A finite number in the form in which doubles are unpacked, whatever its size. -/
inductive IsReduced : UnpackedFloat → Prop
  | zero (s : Sign) : IsReduced (.zero s)
  | finite (s : Sign) {m : ℕ} {e : ℤ} (h : IsCanonical m e) (hm : 0 < m) :
    IsReduced (.finite s m e hm)

theorem isReduced_unpack {x : Float} (hx : x.isFinite) : IsReduced x.toModel.unpack := by
  replace hx : x.toModel.unpack.isFinite = true := hx
  cases h : x.toModel.unpack with
  | zero s => exact .zero s
  | finite s m e hm => exact .finite s (isCanonical_of_unpack_eq h).1 hm
  | infinity s =>
    rw [h] at hx
    cases hx
  | notANumber =>
    rw [h] at hx
    cases hx

section Canonical

variable {m : ℕ} {e : ℤ}

theorem IsCanonical.lt_two_pow (h : IsCanonical m e) : m < 2 ^ 53 := by
  rcases Nat.eq_zero_or_pos m with rfl | hm
  · exact Nat.two_pow_pos 53
  · refine (Nat.log2_lt hm.ne').1 ?_
    rcases h with ⟨h, -⟩ | ⟨h, -⟩ <;> omega

theorem IsCanonical.two_pow_le (h : IsCanonical m e) (he : e ≠ -1074) : 2 ^ 52 ≤ m := by
  rcases h with ⟨h, -⟩ | ⟨-, h⟩
  · exact h ▸ Nat.log2_self_le (by rintro rfl; cases h)
  · exact absurd h he

theorem IsCanonical.neg_1074_le (h : IsCanonical m e) : -1074 ≤ e := by
  rcases h with ⟨-, h⟩ | ⟨-, h⟩ <;> omega

/-- The magnitude of a canonical form lies below a power of two that its exponent tells. -/
theorem IsCanonical.mul_lt (h : IsCanonical m e) : (m : ℚ) * 2 ^ e < 2 ^ (e + 53) := by
  rw [add_comm, two_zpow_add]
  exact mul_lt_mul_of_pos_right (by exact_mod_cast h.lt_two_pow) (two_zpow_pos e)

theorem IsCanonical.le_mul (h : IsCanonical m e) (he : e ≠ -1074) :
    (2 : ℚ) ^ (e + 52) ≤ m * 2 ^ e := by
  rw [add_comm, two_zpow_add]
  exact mul_le_mul_of_nonneg_right (by exact_mod_cast h.two_pow_le he) (two_zpow_pos e).le

theorem IsCanonical.le_971 (h : IsCanonical m e) (hlt : (m : ℚ) * 2 ^ e < 2 ^ (1024 : ℤ)) :
    e ≤ 971 := by
  by_contra hgt
  have hle := h.le_mul (by omega)
  have := two_zpow_le (show 1024 ≤ e + 52 by omega)
  linarith

/-- Canonical forms are ordered by exponent first. -/
theorem IsCanonical.compare_eq {n : ℕ} {d : ℤ} (h : IsCanonical m e) (h' : IsCanonical n d) :
    (compare e d).then (compare m n) = compare ((m : ℚ) * 2 ^ e) (n * 2 ^ d) := by
  have hless {m n : ℕ} {e d : ℤ} (h : IsCanonical m e) (h' : IsCanonical n d) (hlt : e < d) :
      (m : ℚ) * 2 ^ e < n * 2 ^ d := by
    have := h.neg_1074_le
    calc (m : ℚ) * 2 ^ e < 2 ^ (e + 53) := h.mul_lt
      _ ≤ 2 ^ (d + 52) := two_zpow_le (by omega)
      _ ≤ n * 2 ^ d := h'.le_mul (by omega)
  rcases lt_trichotomy e d with hlt | rfl | hlt
  · rw [compare_lt_iff_lt.2 hlt, compare_lt_iff_lt.2 (hless h h' hlt)]
    rfl
  · rw [compare_eq_iff_eq.2 rfl, Ordering.then]
    have hscale := two_zpow_pos e
    rcases lt_trichotomy m n with hlt | rfl | hlt
    · have hcast : (m : ℚ) < n := by exact_mod_cast hlt
      rw [compare_lt_iff_lt.2 hlt, compare_lt_iff_lt.2 (mul_lt_mul_of_pos_right hcast hscale)]
    · rw [compare_eq_iff_eq.2 rfl, compare_eq_iff_eq.2 rfl]
    · have hcast : (n : ℚ) < m := by exact_mod_cast hlt
      rw [compare_gt_iff_gt.2 hlt, compare_gt_iff_gt.2 (mul_lt_mul_of_pos_right hcast hscale)]
  · rw [compare_gt_iff_gt.2 hlt, compare_gt_iff_gt.2 (hless h' h hlt)]
    rfl

end Canonical

/-- A reduced form in range is unpacked as it was packed. -/
theorem unpack_pack {u : UnpackedFloat} (h : IsReduced u)
    (hrange : |unpackedValue u| < 2 ^ (1024 : ℤ)) : (Float.Model.pack u).unpack = u := by
  cases h with
  | zero s => exact UnpackedFloat.unpack_packedZero
  | @finite s m e h hm =>
    rw [unpackedValue_finite, abs_mul, abs_signFactor, one_mul,
      abs_of_pos (by positivity)] at hrange
    have hgreatest := h.le_971 hrange
    rcases h with ⟨hlog, hleast⟩ | ⟨hlog, rfl⟩
    · exact unpack_pack_normal hm hlog hleast hgreatest
    · exact unpack_pack_subnormal hm hlog

theorem unpack_pack_infinity (s : Sign) :
    (Float.Model.pack (.infinity s)).unpack = .infinity s := by
  cases s <;> rfl

theorem unpack_pack_notANumber : (Float.Model.pack .notANumber).unpack = .notANumber := rfl

theorem abs_value_lt (x : Float) : |value x| < 2 ^ (1024 : ℤ) := by
  rw [value]
  cases h : x.toModel.unpack with
  | finite s m e hm =>
    obtain ⟨hcanonical, he⟩ := isCanonical_of_unpack_eq h
    rw [unpackedValue_finite, abs_mul, abs_signFactor, one_mul, abs_of_pos (by positivity)]
    exact hcanonical.mul_lt.trans_le (two_zpow_le (by omega))
  | _ => simp [unpackedValue]

/-! ### The greatest double -/

/-- The greatest number that is a double. -/
def greatest : ℚ := (2 ^ 53 - 1) * 2 ^ (971 : ℤ)

theorem nearest_greatest : nearest greatest = greatest := by
  have h := nearest_of_grid (n := 2 ^ 53 - 1) (e := 971) (by norm_num) (by norm_num)
  rwa [show ((2 ^ 53 - 1 : ℤ) : ℚ) = 2 ^ 53 - 1 by norm_num] at h

theorem greatest_lt : greatest < 2 ^ (1024 : ℤ) := by
  rw [greatest, show (1024 : ℤ) = 53 + 971 by norm_num, two_zpow_add]
  exact mul_lt_mul_of_pos_right (by norm_num) (two_zpow_pos 971)

theorem nearest_lt_of_le_greatest {q : ℚ} (h : q ≤ greatest) : nearest q < 2 ^ (1024 : ℤ) :=
  ((nearest_mono h).trans nearest_greatest.le).trans_lt greatest_lt

theorem exists_greatest_eq : ∃ n : ℤ, greatest = n := by
  obtain ⟨n, hn⟩ := exists_two_zpow_eq (show (0 : ℤ) ≤ 971 by norm_num)
  rw [zpow_zero, mul_one] at hn
  exact ⟨(2 ^ 53 - 1) * n, by rw [greatest, hn]; norm_num⟩

theorem abs_value_le_greatest (x : Float) : |value x| ≤ greatest := by
  rw [value]
  cases h : x.toModel.unpack with
  | finite s m e hm =>
    obtain ⟨hcanonical, he⟩ := isCanonical_of_unpack_eq h
    have hbits : (m : ℤ) ≤ 2 ^ 53 - 1 := by
      have := hcanonical.lt_two_pow
      omega
    rw [unpackedValue_finite, abs_mul, abs_signFactor, one_mul, abs_of_pos (by positivity)]
    refine mul_le_mul ?_ (two_zpow_le he) (two_zpow_pos e).le (by norm_num)
    exact_mod_cast hbits
  | _ =>
    simp only [unpackedValue, abs_zero, greatest]
    positivity

/-! ### Comparing doubles -/

theorem compare_neg_neg (p q : ℚ) : compare (-p) (-q) = (compare p q).swap := by
  rcases lt_trichotomy p q with h | rfl | h
  · rw [compare_lt_iff_lt.2 h, compare_gt_iff_gt.2 (neg_lt_neg h), Ordering.swap]
  · rw [compare_eq_iff_eq.2 rfl, compare_eq_iff_eq.2 rfl, Ordering.swap]
  · rw [compare_gt_iff_gt.2 h, compare_lt_iff_lt.2 (neg_lt_neg h), Ordering.swap]

/-- Reduced forms are compared by their values. -/
theorem IsReduced.compare_eq {u v : UnpackedFloat} (hu : IsReduced u) (hv : IsReduced v) :
    u.compare v = some (compare (unpackedValue u) (unpackedValue v)) := by
  have hpos {m : ℕ} (e : ℤ) (hm : 0 < m) : (0 : ℚ) < m * 2 ^ e := by positivity
  cases hu with
  | zero s =>
    cases hv with
    | zero t => simp [UnpackedFloat.compare, unpackedValue]
    | @finite t n d h hn =>
      have := hpos d hn
      cases t with
      | positive =>
        change some Ordering.lt = _
        rw [unpackedValue_zero, unpackedValue_finite, signFactor_positive, one_mul,
          compare_lt_iff_lt.2 this]
      | negative =>
        change some Ordering.gt = _
        rw [unpackedValue_zero, unpackedValue_finite, signFactor_negative, neg_one_mul,
          compare_gt_iff_gt.2 (neg_lt_zero.2 this)]
  | @finite s m e h hm =>
    have := hpos e hm
    cases hv with
    | zero t =>
      cases s with
      | positive =>
        change some Ordering.gt = _
        rw [unpackedValue_zero, unpackedValue_finite, signFactor_positive, one_mul,
          compare_gt_iff_gt.2 this]
      | negative =>
        change some Ordering.lt = _
        rw [unpackedValue_zero, unpackedValue_finite, signFactor_negative, neg_one_mul,
          compare_lt_iff_lt.2 (neg_lt_zero.2 this)]
    | @finite t n d h' hn =>
      have := hpos d hn
      rw [unpackedValue_finite, unpackedValue_finite]
      cases s with
      | positive =>
        cases t with
        | positive =>
          rw [UnpackedFloat.compare, signFactor_positive, one_mul, one_mul, h.compare_eq h']
        | negative =>
          rw [UnpackedFloat.compare, signFactor_positive, signFactor_negative, one_mul,
            neg_one_mul, compare_gt_iff_gt.2 (by linarith)]
      | negative =>
        cases t with
        | positive =>
          rw [UnpackedFloat.compare, signFactor_positive, signFactor_negative, one_mul,
            neg_one_mul, compare_lt_iff_lt.2 (by linarith)]
        | negative =>
          rw [UnpackedFloat.compare, signFactor_negative, neg_one_mul, neg_one_mul,
            h.compare_eq h', compare_neg_neg]

section Order

variable {x y : Float}

theorem lt_iff (hx : x.isFinite) (hy : y.isFinite) : x < y ↔ value x < value y := by
  have hcompare := (isReduced_unpack hx).compare_eq (isReduced_unpack hy)
  rw [show x < y ↔ (x.toModel.unpack.compare y.toModel.unpack == some .lt) = true from
    decide_eq_true_iff, hcompare, value, value, beq_iff_eq, Option.some_inj, compare_lt_iff_lt]

theorem le_iff (hx : x.isFinite) (hy : y.isFinite) : x ≤ y ↔ value x ≤ value y := by
  have hcompare := (isReduced_unpack hx).compare_eq (isReduced_unpack hy)
  rw [show x ≤ y ↔ (x.toModel.unpack.compare y.toModel.unpack).any (·.isLE) = true from
    decide_eq_true_iff, hcompare, value, value, Option.any_some, ← compare_le_iff_le]
  cases compare (unpackedValue x.toModel.unpack) (unpackedValue y.toModel.unpack) <;> decide

theorem float_le_of_lt (h : x < y) : x ≤ y := by
  replace h : (x.toModel.unpack.compare y.toModel.unpack == some .lt) = true :=
    of_decide_eq_true h
  refine decide_eq_true_iff.2 ?_
  change (x.toModel.unpack.compare y.toModel.unpack).any (·.isLE) = true
  rw [beq_iff_eq.1 h]
  rfl

/-- A double between two finite ones is finite. -/
theorem isFinite_of_le_of_le {a b : Float} (ha : a.isFinite) (hb : b.isFinite) (hax : a ≤ x)
    (hxb : x ≤ b) : x.isFinite := by
  change x.toModel.unpack.isFinite = true
  replace hax : (a.toModel.unpack.compare x.toModel.unpack).any (·.isLE) = true :=
    of_decide_eq_true hax
  replace hxb : (x.toModel.unpack.compare b.toModel.unpack).any (·.isLE) = true :=
    of_decide_eq_true hxb
  have ha' := isReduced_unpack ha
  have hb' := isReduced_unpack hb
  revert ha' hb' hax hxb
  generalize a.toModel.unpack = u
  generalize b.toModel.unpack = v
  cases x.toModel.unpack with
  | zero s => exact fun _ _ _ _ => rfl
  | finite s m e hm => exact fun _ _ _ _ => rfl
  | notANumber => exact fun _ h _ _ => absurd h Bool.false_ne_true
  | infinity s =>
    -- An infinity is above every finite double, or below every one.
    intro hax hxb hu hv
    cases s with
    | positive => cases hv <;> exact absurd hxb Bool.false_ne_true
    | negative => cases hu <;> exact absurd hax Bool.false_ne_true

end Order

end SolidScene.Double
