import SolidScene.Proofs.Decimal.Layout
import SolidScene.Proofs.Double.Shortest
import SolidScene.Proofs.Json.Scaling

/-!
# Numbers read back

The digits in which a double is written fit into a word, so all of them are read
(`numeralValue?_eq`) before they are scaled by a power of ten.  The number that comes out need not
be the double that was written, but it is finite and has the same sign (`toFloat?_ofFloat`): the few
roundings cannot carry a double that is not next to the ends of the range out of it, and the four
that are next to them are read back by evaluation (`isRecovered_extremes`).
-/

namespace SolidScene.Json

open Double

/-! ### All digits are read -/

theorem takeDigits_eq {significand : ℕ} {cs : List Char}
    (h : significand * 10 ^ cs.length + natOfDigits cs < significandLimit) :
    takeDigits significand cs = (significand * 10 ^ cs.length + natOfDigits cs, []) := by
  induction cs generalizing significand with
  | nil => simp [takeDigits]
  | cons c cs ih =>
    have hnext : significand * 10 ^ (c :: cs).length + natOfDigits (c :: cs) =
        (10 * significand + digitValue c) * 10 ^ cs.length + natOfDigits cs := by
      rw [natOfDigits_cons, List.length_cons, pow_succ]
      ring
    rw [hnext] at h ⊢
    have hlt : 10 * significand + digitValue c < significandLimit := by
      have hle := Nat.le_mul_of_pos_right (10 * significand + digitValue c)
        (pow_pos (by norm_num : 0 < 10) cs.length)
      omega
    rw [takeDigits]
    simp only [if_pos hlt]
    exact ih h

/-- A numeral whose digits fit into a word is read with all of them. -/
theorem numeralValue?_eq {n : Numeral}
    (hdigits : natOfDigits (n.whole ++ n.fraction) < significandLimit)
    (hexponent : (n.exponent.getD 0).natAbs ≤ exponentLimit) :
    numeralValue? n =
      if 0 ≤ n.exponent.getD 0 - n.fraction.length then
        scaleUp? (Float.ofNat (natOfDigits (n.whole ++ n.fraction)))
          (n.exponent.getD 0 - n.fraction.length).natAbs
      else some (scaleDown (Float.ofNat (natOfDigits (n.whole ++ n.fraction)))
        (n.exponent.getD 0 - n.fraction.length).natAbs) := by
  have happend := natOfDigits_append n.whole n.fraction
  have hwhole : takeDigits 0 n.whole = (natOfDigits n.whole, []) := by
    have hle := Nat.le_mul_of_pos_right (natOfDigits n.whole)
      (pow_pos (by norm_num : 0 < 10) n.fraction.length)
    rw [takeDigits_eq (by rw [zero_mul, zero_add]; omega), zero_mul, zero_add]
  have hfraction : takeDigits (natOfDigits n.whole) n.fraction =
      (natOfDigits (n.whole ++ n.fraction), []) := by
    rw [takeDigits_eq (by rwa [← happend]), ← happend]
  have hplaces :
      ((([] : List Char).length : ℤ) - (n.fraction.length - ([] : List Char).length : ℕ)) +
        n.exponent.getD 0 = n.exponent.getD 0 - n.fraction.length := by
    simp only [List.length_nil, Nat.sub_zero]
    omega
  rw [numeralValue?, hwhole]
  simp only [hfraction, hplaces, if_neg (Nat.not_lt.2 hexponent), ge_iff_le]

/-! ### Numerals -/

/-- A numeral whose digits fit into a word is read as a finite number above zero, if it stays clear
of both ends of the range. -/
theorem numeralValue?_spec {n : Numeral}
    (hdigits : natOfDigits (n.whole ++ n.fraction) < significandLimit)
    (hexponent : (n.exponent.getD 0).natAbs ≤ exponentLimit)
    (hlower : 3 * 2 ^ (-1075 : ℤ) ≤ n.toRat) (hupper : n.toRat ≤ nearGreatest) :
    ∃ f, numeralValue? n = some f ∧ f.isFinite ∧ 0 < value f := by
  have hpos : 0 < n.toRat := lt_of_lt_of_le (by have := two_zpow_pos (-1075); positivity) hlower
  rw [numeralValue?_eq hdigits hexponent]
  rw [Numeral.toRat] at hlower hupper hpos
  generalize natOfDigits (n.whole ++ n.fraction) = w at *
  generalize n.exponent.getD 0 - n.fraction.length = total at *
  have hw : 0 < w := by
    rcases Nat.eq_zero_or_pos w with rfl | hw
    · rw [Nat.cast_zero, zero_mul] at hpos
      exact absurd hpos (lt_irrefl 0)
    · exact hw
  split
  · next hnonneg =>
    obtain ⟨k, rfl⟩ := Int.eq_ofNat_of_zero_le hnonneg
    rw [zpow_natCast] at hupper
    obtain ⟨f, hf, hfinite, -, hvalue⟩ := scaleUp?_spec hw hdigits hupper
    exact ⟨f, hf, hfinite, hvalue⟩
  · next hneg =>
    obtain ⟨k, rfl⟩ := Int.exists_eq_neg_ofNat (le_of_not_ge hneg)
    have hpower : (10 : ℚ) ^ (-(k : ℤ)) = (10 ^ k)⁻¹ := by rw [zpow_neg, zpow_natCast]
    rw [hpower, ← div_eq_mul_inv] at hlower
    rw [Int.natAbs_neg, Int.natAbs_natCast]
    exact ⟨_, rfl, scaleDown_spec hw hdigits hlower⟩

/-! ### Written doubles -/

section Written

variable {x y : Float} {u v : ExactValue}

/-- What is written of a double is its magnitude. -/
theorem write?_congr (hx : ExactValue.ofFloat? x = some v) (hy : ExactValue.ofFloat? y = some u)
    (hm : v.mantissa = u.mantissa) (he : v.exponent = u.exponent) :
    format.write? x = format.write? y := by
  obtain ⟨s, m, e⟩ := v
  obtain ⟨t, n, d⟩ := u
  obtain rfl : m = n := hm
  obtain rfl : e = d := he
  rw [NumberFormat.write?, NumberFormat.write?, Decimal.shortest?, Decimal.shortest?, hx, hy]
  rfl

/-- Whether the magnitude that is written of a double is read back as a valid scale. -/
def isRecovered (x : Float) : Bool := ((format.write? x).bind numeralValue?).any Solid.validScale

/-- The least double and the three greatest are read back as valid ones. -/
theorem isRecovered_extremes :
    isRecovered (Float.ofBits 1) ∧ isRecovered (Float.ofBits 0x7FEFFFFFFFFFFFFD) ∧
      isRecovered (Float.ofBits 0x7FEFFFFFFFFFFFFE) ∧
      isRecovered (Float.ofBits 0x7FEFFFFFFFFFFFFF) :=
  ⟨by decide +kernel, by decide +kernel, by decide +kernel, by decide +kernel⟩

theorem ofFloat?_extremes :
    ExactValue.ofFloat? (Float.ofBits 1) = some ⟨false, 1, -1074⟩ ∧
      ExactValue.ofFloat? (Float.ofBits 0x7FEFFFFFFFFFFFFD) = some ⟨false, 9007199254740989, 971⟩ ∧
      ExactValue.ofFloat? (Float.ofBits 0x7FEFFFFFFFFFFFFE) = some ⟨false, 9007199254740990, 971⟩ ∧
      ExactValue.ofFloat? (Float.ofBits 0x7FEFFFFFFFFFFFFF) = some ⟨false, 9007199254740991, 971⟩ :=
  ⟨by decide, by decide, by decide, by decide⟩

/-- A double away from the ends of the range is written as a decimal away from them. -/
theorem toRat_bounds {d : Decimal} (hv : IsCanonical v.mantissa v.exponent) (he : v.exponent ≤ 971)
    (hleast : v.exponent = -1074 → 2 ≤ v.mantissa)
    (hgreatest : v.exponent = 971 → v.mantissa ≤ 2 ^ 53 - 4)
    (h : |d.toRat - v.mantissa * 2 ^ v.exponent| ≤ 2 ^ v.exponent / 2) :
    3 * 2 ^ (-1075 : ℤ) ≤ d.toRat ∧ d.toRat ≤ nearGreatest := by
  obtain ⟨hlow, hhigh⟩ := abs_le.1 h
  have hstep := two_zpow_pos v.exponent
  constructor
  · have hm : (2 : ℚ) ≤ v.mantissa := by
      by_cases hexponent : v.exponent = -1074
      · exact_mod_cast hleast hexponent
      · have := hv.two_pow_le hexponent
        exact_mod_cast (by omega : 2 ≤ v.mantissa)
    have hfine : (2 : ℚ) ^ (-1075 : ℤ) * 2 ≤ 2 ^ v.exponent := by
      rw [← zpow_add_one₀ (by norm_num)]
      exact two_zpow_le hv.neg_1074_le
    have := mul_le_mul_of_nonneg_right hm hstep.le
    linarith only [this, hfine, hlow]
  · rw [nearGreatest]
    by_cases hexponent : v.exponent = 971
    · have hm : (v.mantissa : ℚ) ≤ 2 ^ 53 - 4 := by
        have : ((v.mantissa : ℕ) : ℚ) ≤ (2 ^ 53 - 4 : ℕ) := Nat.cast_le.2 (hgreatest hexponent)
        refine this.trans (le_of_eq ?_)
        norm_num
      rw [hexponent] at hhigh hstep
      have := mul_le_mul_of_nonneg_right hm hstep.le
      linarith only [this, hhigh]
    · have hm : (v.mantissa : ℚ) ≤ 2 ^ 53 := by exact_mod_cast hv.lt_two_pow.le
      have hcoarse : (2 : ℚ) ^ v.exponent * 2 ≤ 2 ^ (971 : ℤ) := by
        rw [← zpow_add_one₀ (by norm_num)]
        exact two_zpow_le (by omega)
      have := mul_le_mul_of_nonneg_right hm hstep.le
      generalize (2 : ℚ) ^ v.exponent = step at *
      generalize (2 : ℚ) ^ (971 : ℤ) = last at *
      linarith only [this, hhigh, hcoarse, hstep]

/-- The exponent of a number away from the ends of the range is within the limit. -/
theorem natAbs_exponent_le {d : Decimal} (hlower : 3 * 2 ^ (-1075 : ℤ) ≤ d.toRat)
    (hupper : d.toRat ≤ nearGreatest) :
    ((format.writeMagnitude d).exponent.getD 0).natAbs ≤ exponentLimit := by
  cases hexponent : (format.writeMagnitude d).exponent with
  | none => exact Nat.zero_le _
  | some e =>
    obtain ⟨hle, hlt⟩ := NumberFormat.exponent_writeMagnitude hexponent
    have habove : e < ((greatestPower + 1 : ℕ) : ℤ) := by
      have hrange : d.toRat < 10 ^ (greatestPower + 1) :=
        ((hupper.trans nearGreatest_le).trans_lt greatest_lt).trans_le two_zpow_1024_le
      rw [← zpow_natCast] at hrange
      exact (zpow_lt_zpow_iff_right₀ (by norm_num)).1 (hle.trans_lt hrange)
    have hbelow : (-1075 : ℤ) < e + 1 := by
      have hfine : (10 : ℚ) ^ (-1075 : ℤ) ≤ 2 ^ (-1075 : ℤ) := ten_zpow_le (by norm_num)
      have hpos := two_zpow_pos (-1075)
      refine (zpow_lt_zpow_iff_right₀ (show (1 : ℚ) < 10 by norm_num)).1 ?_
      linarith only [hfine, hpos, hlower, hlt]
    have hlimit : exponentLimit = 2147483647 := by decide
    have hpower : greatestPower = 308 := rfl
    rw [Option.getD_some]
    omega

/-- **What is written** of a double other than zero is read back as finite and above zero. -/
theorem isRecovered_of_pos (hx : ExactValue.ofFloat? x = some v) (hm : 0 < v.mantissa) :
    isRecovered x := by
  obtain ⟨hcanonical, he⟩ := isCanonical_of_ofFloat? hx hm
  have hlt := hcanonical.lt_two_pow
  have hsame {y : Float} {u : ExactValue} (hy : ExactValue.ofFloat? y = some u)
      (hmantissa : v.mantissa = u.mantissa) (hexponent : v.exponent = u.exponent)
      (hrecovered : isRecovered y) : isRecovered x := by
    rwa [isRecovered, write?_congr hx hy hmantissa hexponent]
  obtain ⟨hleast, hthird, hsecond, hfirst⟩ := ofFloat?_extremes
  obtain ⟨hleast', hthird', hsecond', hfirst'⟩ := isRecovered_extremes
  by_cases hend : v.exponent = -1074 ∧ v.mantissa = 1
  · exact hsame hleast hend.2 hend.1 hleast'
  by_cases htop : v.exponent = 971 ∧ 2 ^ 53 - 4 < v.mantissa
  · obtain h | h | h : v.mantissa = 9007199254740989 ∨ v.mantissa = 9007199254740990 ∨
        v.mantissa = 9007199254740991 := by omega
    · exact hsame hthird h htop.1 hthird'
    · exact hsame hsecond h htop.1 hsecond'
    · exact hsame hfirst h htop.1 hfirst'
  obtain ⟨d, hd, -, hmost, hclose⟩ := shortest?_spec .even hx hm
  obtain ⟨hlower, hupper⟩ := toRat_bounds hcanonical he (by omega) (by omega) hclose.abs_sub_le
  have hdigits : natOfDigits ((format.writeMagnitude d).whole ++
      (format.writeMagnitude d).fraction) < significandLimit := by
    refine (NumberFormat.natOfDigits_writeMagnitude_le rfl d).trans_lt (max_lt ?_ (by decide))
    exact hmost.trans_lt (by decide)
  have hvalue := NumberFormat.toRat_writeMagnitude format d
  obtain ⟨f, hf, hfinite, hpos⟩ := numeralValue?_spec hdigits (natAbs_exponent_le hlower hupper)
    (hvalue ▸ hlower) (hvalue ▸ hupper)
  have hwrite : format.write? x = some (format.writeMagnitude d) := by
    rw [NumberFormat.write?]
    exact congrArg (Option.map _) hd
  rw [isRecovered, hwrite, Option.bind_some, hf, Option.any_some]
  exact validScale_iff.2 ⟨hfinite, hpos⟩

/-! ### Doubles read back -/

/-- A zero is read back as a zero. -/
theorem numeralValue?_zero : numeralValue? (format.writeMagnitude ⟨0, 0⟩) = some 0.0 := by
  decide

theorem validScale_zeros : Solid.validScale 0.0 = false ∧ Solid.validScale (-0.0) = false :=
  ⟨by decide, by decide⟩

/-- **A finite double** is read back as a finite double of the same sign. -/
theorem toFloat?_ofFloat (hx : x.isFinite) :
    ∃ y, (ofFloat x).toFloat? = some y ∧ Solid.validScale y = Solid.validScale x := by
  obtain ⟨v, hv⟩ := exists_ofFloat?_eq hx
  have hvalue := value_eq_of_ofFloat? hv
  rcases Nat.eq_zero_or_pos v.mantissa with hzero | hpos
  · have hwrite : format.write? x = some (format.writeMagnitude ⟨0, 0⟩) := by
      rw [NumberFormat.write?, Decimal.shortest?, hv, Option.map_some, if_pos hzero]
      rfl
    have hinvalid : Solid.validScale x = false := by
      rw [← Bool.not_eq_true, validScale_iff, hvalue, hzero]
      simp
    refine ⟨if isNegative x then -0.0 else 0.0, ?_, ?_⟩
    · rw [ofFloat, hwrite]
      simp only [toFloat?, numeralValue?_zero, Option.map_some]
    · rw [hinvalid]
      split
      · exact validScale_zeros.2
      · exact validScale_zeros.1
  · have hrecovered := isRecovered_of_pos hv hpos
    rw [isRecovered, Option.any_eq_true] at hrecovered
    obtain ⟨f, hread, hvalid⟩ := hrecovered
    obtain ⟨n, hwrite, hf⟩ := Option.bind_eq_some_iff.1 hread
    obtain ⟨hfinite, hfpos⟩ := validScale_iff.1 hvalid
    have hmagnitude : 0 < (v.mantissa : ℚ) * 2 ^ v.exponent :=
      mul_pos (by exact_mod_cast hpos) (two_zpow_pos _)
    refine ⟨if isNegative x then -f else f, ?_, ?_⟩
    · rw [ofFloat, hwrite]
      simp only [toFloat?, hf, Option.map_some]
    · rw [Bool.eq_iff_iff, validScale_iff, validScale_iff, hvalue]
      cases isNegative x with
      | true =>
        obtain ⟨-, hneg⟩ := neg_spec hfinite
        simp only [if_true, hneg]
        exact iff_of_false (fun h => by linarith [h.2]) fun h => by linarith [h.2]
      | false =>
        simp only [Bool.false_eq_true, if_false, one_mul]
        exact iff_of_true ⟨hfinite, hfpos⟩ ⟨hx, hmagnitude⟩

/-- A double that is not finite is not read back. -/
theorem toFloat?_ofFloat_of_not_finite (hx : x.isFinite = false) : (ofFloat x).toFloat? = none := by
  have hnone : ExactValue.ofFloat? x = none := by
    rw [Option.eq_none_iff_forall_ne_some]
    intro v hv
    rw [(toRat_of_ofFloat?_eq hv).1] at hx
    cases hx
  rw [ofFloat, NumberFormat.write?, Decimal.shortest?, hnone]
  rfl

end Written

end SolidScene.Json
