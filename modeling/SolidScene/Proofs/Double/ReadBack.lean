import SolidScene.Decimal.Numeral
import SolidScene.Proofs.Decimal.Layout
import SolidScene.Proofs.Double.Shortest
import SolidScene.Proofs.Double.Sign
import SolidScene.Text.Blank

/-!
# Doubles read back from their texts

A number that rounds to a double, in the sense of the writer, is rounded to it by the reader
(`RoundsTo.nearest_eq`), and a double other than zero is told by its value (`eq_of_value_eq`).  The
plain text of a double is its sign and a row of digits with one point at most, which says its
shortest decimal.  So it reads back as the same double, bit by bit (`readFloat?_plainText`): a zero
keeps its sign, and what no digits spell is read by its name.
-/

namespace SolidScene

namespace Double

open Float.Model
open Float.Model.UnpackedFloat (Sign)

/-! ### What rounds to a double -/

/-- A number at most half a step from a point of its grid is rounded to it, an odd point being less
than half a step away. -/
theorem nearest_eq_of_step {q : ℚ} {n e : ℤ} (he : stepExponent q = e)
    (hdistance : 2 * |q - n * 2 ^ e| ≤ 2 ^ e)
    (heven : 2 * |q - n * 2 ^ e| = 2 ^ e → n % 2 = 0) : nearest q = n * 2 ^ e := by
  have hstep := two_zpow_pos e
  have hscaled : |(n : ℚ) - q / 2 ^ e| * 2 ^ e = |q - n * 2 ^ e| := by
    rw [abs_sub_comm q, ← abs_of_pos hstep, ← abs_mul, abs_of_pos hstep, sub_mul,
      div_mul_cancel₀ q hstep.ne']
  rw [← hscaled] at hdistance heven
  rw [nearest, he, roundEven_eq (n := n)]
  · refine le_of_mul_le_mul_right ?_ hstep
    linarith
  · intro hhalf
    refine heven ?_
    rw [hhalf]
    ring

namespace RoundsTo

variable {v : ExactValue} {q : ℚ}

theorem two_mul_sub_le (h : RoundsTo v q) :
    2 * (v.mantissa * 2 ^ v.exponent - q) ≤ 2 ^ v.exponent := by
  have := neg_abs_le (q - v.mantissa * 2 ^ v.exponent)
  linarith [h.two_mul_abs_le]

theorem pos (h : RoundsTo v q) (hm : 0 < v.mantissa) : 0 < q := by
  have hstep := two_zpow_pos v.exponent
  have hleast : (1 : ℚ) * 2 ^ v.exponent ≤ v.mantissa * 2 ^ v.exponent :=
    mul_le_mul_of_nonneg_right (by exact_mod_cast hm) hstep.le
  linarith [h.two_mul_sub_le]

theorem lt_two_zpow (h : RoundsTo v q) (hcanonical : IsCanonical v.mantissa v.exponent) :
    q < 2 ^ (v.exponent + 53) := by
  have hstep := two_zpow_pos v.exponent
  have hmost : ((v.mantissa : ℚ) + 1) * 2 ^ v.exponent ≤ 2 ^ (53 : ℤ) * 2 ^ v.exponent :=
    mul_le_mul_of_nonneg_right (by exact_mod_cast hcanonical.lt_two_pow) hstep.le
  rw [← two_zpow_add, add_comm 53] at hmost
  have := le_abs_self (q - v.mantissa * 2 ^ v.exponent)
  linarith [h.two_mul_abs_le]

/-- Only a power of two has numbers on a finer grid that round to it. -/
theorem mantissa_eq_of_lt (h : RoundsTo v q) (hcanonical : IsCanonical v.mantissa v.exponent)
    (hleast : v.exponent ≠ -1074) (hlt : q < 2 ^ (v.exponent + 52)) : v.mantissa = 2 ^ 52 := by
  have hstep := two_zpow_pos v.exponent
  refine le_antisymm ?_ (hcanonical.two_pow_le hleast)
  by_contra hgt
  have hnext : ((2 ^ 52 + 1 : ℕ) : ℚ) * 2 ^ v.exponent ≤ v.mantissa * 2 ^ v.exponent :=
    mul_le_mul_of_nonneg_right (by exact_mod_cast not_le.1 hgt) hstep.le
  have hpower : (2 : ℚ) ^ (v.exponent + 52) = 2 ^ (52 : ℕ) * 2 ^ v.exponent := by
    rw [add_comm, two_zpow_add]
    rfl
  push_cast at hnext
  linarith [h.two_mul_sub_le]

/-- Below a power of two the grid is twice as fine, and the power is a point of it. -/
theorem nearest_eq_of_lt (h : RoundsTo v q) (hcanonical : IsCanonical v.mantissa v.exponent)
    (hleast : v.exponent ≠ -1074) (hlt : q < 2 ^ (v.exponent + 52)) :
    nearest q = v.mantissa * 2 ^ v.exponent := by
  have hmantissa := h.mantissa_eq_of_lt hcanonical hleast hlt
  have hpos := h.pos (by omega)
  have hcloser := h.four_mul_sub_le (by
    simpa [ExactValue.closerBelow, ExactValue.leastFull, ExactValue.leastExponent, hmantissa]
      using hleast)
  have hbound := hcanonical.neg_1074_le
  rw [hmantissa] at hcloser ⊢
  generalize v.exponent = e at *
  have hhalf : (2 : ℚ) ^ e = 2 * 2 ^ (e - 1) := by
    rw [mul_comm, ← zpow_add_one₀ two_ne_zero, sub_add_cancel]
  have hpoint : ((2 ^ 52 : ℕ) : ℚ) * 2 ^ e = ((2 ^ 53 : ℤ) : ℚ) * 2 ^ (e - 1) := by
    rw [hhalf]
    norm_num
    ring
  have hpower : (2 : ℚ) ^ (e + 52) = ((2 ^ 52 : ℕ) : ℚ) * 2 ^ e := by
    rw [add_comm, two_zpow_add]
    norm_num
  have hreached : (2 : ℚ) ^ (e - 1 + 52) = 2 ^ (e + 52) / 2 := by
    rw [two_zpow_add, two_zpow_add, hhalf]
    ring
  have hstep := two_zpow_pos e
  have hexponent : stepExponent q = e - 1 := by
    refine stepExponent_eq hpos.ne' (by omega) ?_ (.inr ?_)
    · rw [abs_of_pos hpos]
      exact hlt.trans_le (two_zpow_le (by omega))
    · rw [abs_of_pos hpos, hreached]
      push_cast at hcloser hpower
      linarith
  rw [hpower, hpoint] at hlt
  rw [hpoint] at hcloser ⊢
  refine nearest_eq_of_step hexponent ?_ fun _ => by norm_num
  rw [abs_sub_comm, abs_of_pos (sub_pos.2 hlt)]
  linarith

/-- **What rounds to a double** by its distance is rounded to it. -/
theorem nearest_eq (h : RoundsTo v q) (hcanonical : IsCanonical v.mantissa v.exponent)
    (hm : 0 < v.mantissa) : nearest q = v.mantissa * 2 ^ v.exponent := by
  by_cases hgrid : v.exponent = -1074 ∨ (2 : ℚ) ^ (v.exponent + 52) ≤ q
  · have hpos := h.pos hm
    have hexponent : stepExponent q = v.exponent := by
      refine stepExponent_eq hpos.ne' hcanonical.neg_1074_le ?_ ?_ <;> rw [abs_of_pos hpos]
      · exact h.lt_two_zpow hcanonical
      · exact hgrid
    have heven := h.even_of_eq
    exact nearest_eq_of_step (n := v.mantissa) hexponent h.two_mul_abs_le fun heq => by
      have := heven heq
      omega
  · rw [not_or, not_le] at hgrid
    exact h.nearest_eq_of_lt hcanonical hgrid.1 hgrid.2

end RoundsTo

/-! ### Equal doubles -/

/-- A double is what it is unpacked to, packed. -/
theorem ofModel_pack_unpack (x : Float) : Float.ofModel (.pack x.toModel.unpack) = x :=
  congrArg Float.ofModel (model_pack_unpack x.toModel)

theorem IsReduced.eq_of_value_eq {u v : UnpackedFloat} (hu : IsReduced u) (hv : IsReduced v)
    (h : unpackedValue u = unpackedValue v) (hne : unpackedValue u ≠ 0) : u = v := by
  cases hu with
  | zero s => exact absurd rfl hne
  | @finite s m e hcanonical hm =>
    cases hv with
    | zero t => exact absurd h hne
    | @finite t n d hcanonical' hn =>
      have hpos : (0 : ℚ) < m * 2 ^ e := by positivity
      have hpos' : (0 : ℚ) < n * 2 ^ d := by positivity
      rw [unpackedValue_finite, unpackedValue_finite] at h
      obtain ⟨rfl, hsame⟩ : s = t ∧ (m : ℚ) * 2 ^ e = n * 2 ^ d := by
        cases s <;> cases t <;> simp only [signFactor_positive, signFactor_negative] at h
        · exact ⟨rfl, by linarith⟩
        · linarith
        · linarith
        · exact ⟨rfl, by linarith⟩
      have horder := hcanonical.compare_eq hcanonical'
      rw [compare_eq_iff_eq.2 hsame, Ordering.then_eq_eq, compare_eq_iff_eq,
        compare_eq_iff_eq] at horder
      obtain ⟨rfl, rfl⟩ := horder
      rfl

/-- Doubles with the same value, which is not zero, are the same. -/
theorem eq_of_value_eq {x y : Float} (hx : x.isFinite) (hy : y.isFinite)
    (h : value x = value y) (hne : value x ≠ 0) : x = y := by
  have hsame := (isReduced_unpack hx).eq_of_value_eq (isReduced_unpack hy) h hne
  rw [← ofModel_pack_unpack x, hsame, ofModel_pack_unpack]

end Double

/-! ### A plain text is read -/

/-- A plain numeral without an exponent reads as the decimal that it says. -/
theorem Decimal.read?_text_of_isPlain {n : Numeral} (hn : n.IsPlain)
    (hexponent : n.exponent = none) :
    ∃ d, read? n.text = some d ∧ d.toRat = n.toRat := by
  obtain ⟨whole, fraction, exponent⟩ := n
  subst hexponent
  refine ⟨⟨natOfDigits (whole ++ fraction), -fraction.length⟩, ?_, ?_⟩
  · have hscan : scan (Numeral.text ⟨whole, fraction, none⟩) =
        (some ⟨natOfDigits (whole ++ fraction), -fraction.length⟩, []) := by
      simp only [Numeral.text, Option.map_none, Option.getD_none, List.append_nil]
      cases fraction with
      | nil => simpa using scan_digits hn.whole_isDigit hn.whole_ne_nil
      | cons c cs =>
        exact scan_digits_point hn.whole_isDigit hn.fraction_isDigit
          (List.append_ne_nil_of_left_ne_nil hn.whole_ne_nil _)
    rw [read?, hscan]
  · simp [toRat, Numeral.toRat]

theorem NumberFormat.exponent_plain (d : Decimal) : (plain.writeMagnitude d).exponent = none := by
  rw [writeMagnitude]
  split
  · rfl
  · exact exponent_writeInPlace plain _ _

theorem Numeral.IsPlain.isDigit_head {n : Numeral} (hn : n.IsPlain) :
    ∀ c ∈ n.text.head?, c.isDigit := by
  intro c hc
  rw [text, List.append_assoc, List.head?_append_of_ne_nil _ hn.whole_ne_nil] at hc
  exact hn.whole_isDigit c (List.mem_of_mem_head? hc)

namespace Double

/-- The text of a finite double other than zero. -/
theorem readFloat?_plainText_of_ofFloat? {x : Float} {v : ExactValue}
    (h : ExactValue.ofFloat? x = some v) (hm : 0 < v.mantissa) :
    readFloat? (plainText x).toList = some x := by
  obtain ⟨d, hd, -, -, hrounds⟩ := shortest?_spec .up h hm
  have hplain := NumberFormat.isPlain_writeMagnitude .plain d
  obtain ⟨d', hread, hrat⟩ := Decimal.read?_text_of_isPlain hplain (NumberFormat.exponent_plain d)
  rw [NumberFormat.toRat_writeMagnitude] at hrat
  have hnearest := hrounds.nearest_eq (isCanonical_of_ofFloat? h hm).1 hm
  have hvalue := value_eq_of_ofFloat? h
  have hmagnitude : (0 : ℚ) < v.mantissa * 2 ^ v.exponent := by positivity
  have hfinite := (toRat_of_ofFloat?_eq h).1
  obtain ⟨hreadFinite, hreadValue⟩ : d'.toFloat.isFinite ∧
      value d'.toFloat = v.mantissa * 2 ^ v.exponent := by
    rw [← hnearest, ← hrat]
    refine toFloat_spec ?_
    rw [hrat, hnearest]
    have habs := abs_value_lt x
    rw [hvalue, abs_mul, abs_of_pos hmagnitude] at habs
    split at habs <;> simpa using habs
  have hmagnitudeRead : readMagnitude? (NumberFormat.plain.writeMagnitude d).text =
      some d'.toFloat := by
    rw [readMagnitude?, hread]
  have htext : plainText x = withSign x (NumberFormat.plain.writeMagnitude d).text := by
    have hwrite : NumberFormat.plain.write? x = some (NumberFormat.plain.writeMagnitude d) :=
      congrArg (Option.map _) hd
    rw [plainText, hwrite]
  rw [htext, withSign, String.toList_ofList]
  split
  · next hnegative =>
    obtain ⟨hnegFinite, hnegValue⟩ := neg_spec hreadFinite
    rw [if_pos hnegative] at hvalue
    have hsame : -d'.toFloat = x := by
      refine eq_of_value_eq hnegFinite hfinite ?_ ?_ <;> rw [hnegValue, hreadValue] <;> linarith
    rw [readFloat?, hmagnitudeRead, Option.map_some, hsame]
  · next hpositive =>
    rw [if_neg hpositive, one_mul] at hvalue
    have hsame : d'.toFloat = x :=
      eq_of_value_eq hreadFinite hfinite (hreadValue.trans hvalue.symm) (by linarith)
    rw [readFloat?_of_isDigit hplain.isDigit_head, hmagnitudeRead, hsame]

/-- **The plain text of a double** reads back as this double, whichever it is. -/
theorem readFloat?_plainText (x : Float) : readFloat? (plainText x).toList = some x := by
  have hx := ofModel_pack_unpack x
  cases hunpack : x.toModel.unpack with
  | finite s m e hm =>
    have hvalue : ∃ v, ExactValue.ofFloat? x = some v ∧ v.mantissa = m := by
      rw [ExactValue.ofFloat?, hunpack]
      cases s <;> exact ⟨_, rfl, rfl⟩
    obtain ⟨v, hv, rfl⟩ := hvalue
    exact readFloat?_plainText_of_ofFloat? hv hm
  -- What is left are five doubles, whose texts can be evaluated.
  | zero s =>
    rw [← hx, hunpack]
    cases s <;> decide
  | infinity s =>
    rw [← hx, hunpack]
    cases s <;> decide
  | notANumber =>
    rw [← hx, hunpack]
    decide

/-! ### No white space -/

theorem not_isBlank_of_mem_text {n : Numeral} (hn : n.IsPlain) (hexponent : n.exponent = none)
    {c : Char} (h : c ∈ n.text) : Text.isBlank c = false := by
  rw [Numeral.text, hexponent, Option.map_none, Option.getD_none, List.append_nil,
    List.mem_append] at h
  rcases h with h | h
  · exact Text.not_isBlank_of_isDigit (hn.whole_isDigit c h)
  · split at h
    · cases h
    · rcases List.mem_cons.1 h with rfl | h
      · rfl
      · exact Text.not_isBlank_of_isDigit (hn.fraction_isDigit c h)

theorem not_isBlank_of_mem_withSign {x : Float} {cs : List Char}
    (hcs : ∀ c ∈ cs, Text.isBlank c = false) {c : Char} (h : c ∈ (withSign x cs).toList) :
    Text.isBlank c = false := by
  rw [withSign, String.toList_ofList] at h
  split at h
  · rcases List.mem_cons.1 h with rfl | h
    · rfl
    · exact hcs c h
  · exact hcs c h

/-- There is no white space in the plain text of a double. -/
theorem not_isBlank_of_mem_plainText {x : Float} {c : Char} (h : c ∈ (plainText x).toList) :
    Text.isBlank c = false := by
  have hname {cs : List Char} (hcs : cs.any Text.isBlank = false) :
      ∀ c ∈ cs, Text.isBlank c = false :=
    fun c hc => Bool.not_eq_true _ ▸ List.any_eq_false.1 hcs c hc
  rw [plainText] at h
  split at h
  · next n hn =>
    obtain ⟨d, -, rfl⟩ := Option.map_eq_some_iff.1 hn
    exact not_isBlank_of_mem_withSign (fun c => not_isBlank_of_mem_text
      (NumberFormat.isPlain_writeMagnitude .plain d) (NumberFormat.exponent_plain d)) h
  · split at h
    · exact hname (by decide) c h
    · exact not_isBlank_of_mem_withSign (hname (by decide)) h

end Double

end SolidScene
