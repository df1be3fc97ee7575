import SolidScene.Proofs.Decimal.Layout
import SolidScene.Proofs.Double.Exact
import SolidScene.Proofs.Script.Lexeme
import SolidScene.Script.Writer

/-!
# Lengths as they stand in a script

A length is written as a whole number of hundredths: a minus where it is below zero, a whole part
without a superfluous zero, a point and two digits (`SaysHundredths`).  These are the hundredths
nearest to the double, exactly, with halves going to the even one (`IsNearestHundredths`), so longer
lengths are never written as shorter ones.  Whatever follows that cannot go on with a numeral, the
text is cut into a minus, if there is one, and a single numeral, which names the double nearest to
the hundredths (`render_lengthValue`).
-/

namespace SolidScene

namespace Script

open Double
open Decimal (EndsNumeral)

/-! ### What a text says and what is nearest -/

/-- A text says a number of hundredths: a minus below zero, digits without a superfluous zero in
front, a point and two more digits. -/
def SaysHundredths (text : List Char) (n : ℤ) : Prop :=
  ∃ numeral : Numeral, numeral.IsPlain ∧ numeral.exponent = none ∧ numeral.fraction.length = 2 ∧
    numeral.toRat = |n| / 100 ∧ text = (if n < 0 then ['-'] else []) ++ numeral.text

/-- Of all numbers of hundredths one is nearest to a number; where another one is as near, it is
even. -/
structure IsNearestHundredths (q : ℚ) (n : ℤ) : Prop where
  nearest : ∀ m : ℤ, |n / 100 - q| ≤ |m / 100 - q|
  even_of_tie : ∀ m : ℤ, m ≠ n → |m / 100 - q| = |n / 100 - q| → Even n

theorem abs_div_hundred_sub (n : ℤ) (q : ℚ) : |n / 100 - q| = |n - 100 * q| / 100 := by
  have hscaled : (n : ℚ) / 100 - q = (n - 100 * q) / 100 := by ring
  rw [hscaled, abs_div, abs_of_pos (by norm_num : (0 : ℚ) < 100)]

theorem isNearestHundredths_roundEven (q : ℚ) :
    IsNearestHundredths q (roundEven (100 * q)) where
  nearest m := by
    rw [abs_div_hundred_sub, abs_div_hundred_sub]
    exact div_le_div_of_nonneg_right (abs_roundEven_sub_le_abs _ m) (by norm_num)
  even_of_tie m hm htie := by
    rw [abs_div_hundred_sub, abs_div_hundred_sub, div_left_inj' (by norm_num)] at htie
    exact even_roundEven_of_tie hm htie

theorem hundredths_mono {x y : Float} (hx : x.isFinite) (hy : y.isFinite) (h : x ≤ y) :
    hundredths x ≤ hundredths y := by
  rw [hundredths_eq hx, hundredths_eq hy]
  exact roundEven_mono (mul_le_mul_of_nonneg_left ((le_iff hx hy).1 h) (by norm_num))

/-! ### The text -/

/-- The numeral of a natural number of hundredths. -/
def hundredthsNumeral (n : ℕ) : Numeral := ⟨digitsOfNat (n / 100), fixedDigits 2 n, none⟩

theorem text_ofHundredths (n : ℕ) : (Decimal.ofHundredths n).text = (hundredthsNumeral n).text := by
  have hpoint : (hundredthsNumeral n).text =
      digitsOfNat (n / 100) ++ '.' :: fixedDigits 2 n ++ [] := rfl
  rw [hpoint, List.append_nil]
  rfl

theorem isPlain_hundredthsNumeral (n : ℕ) : (hundredthsNumeral n).IsPlain where
  whole_isDigit _ := isDigit_of_mem_digitsOfNat
  whole_ne_nil := digitsOfNat_ne_nil _
  whole_of_zero hzero := by
    rcases Nat.eq_zero_or_pos (n / 100) with h | h
    · rw [hundredthsNumeral, h]
      rfl
    · exact absurd hzero (head?_digitsOfNat_ne h)
  fraction_isDigit _ := isDigit_of_mem_fixedDigits

theorem toRat_hundredthsNumeral (n : ℕ) : (hundredthsNumeral n).toRat = n / 100 := by
  have hdigits : natOfDigits (digitsOfNat (n / 100) ++ fixedDigits 2 n) = n := by
    rw [natOfDigits_append_fixedDigits, natOfDigits_digitsOfNat]
    omega
  rw [Numeral.toRat]
  simp only [hundredthsNumeral, hdigits, length_fixedDigits, Option.getD_none]
  norm_num [div_eq_mul_inv]

theorem render_ofHundredths (n : ℤ) :
    (Value.ofHundredths n).render =
      (if n < 0 then ['-'] else []) ++ (Decimal.ofHundredths n.natAbs).text := by
  simp [Value.ofHundredths, Value.render]

/-- The text of a number of hundredths says it. -/
theorem saysHundredths_render (n : ℤ) : SaysHundredths (Value.ofHundredths n).render n := by
  refine ⟨hundredthsNumeral n.natAbs, isPlain_hundredthsNumeral _, rfl, length_fixedDigits 2 _,
    ?_, ?_⟩
  · rw [toRat_hundredthsNumeral, Nat.cast_natAbs, Int.cast_abs]
  · rw [render_ofHundredths, text_ofHundredths]

/-! ### Its tokens -/

/-- The text of a decimal is cut off as one numeral, whatever follows that does not go on with
it. -/
theorem tokenize_text_append {d : Decimal} (hd : d.exponent ≤ 0) {rest : List Char}
    (hrest : EndsNumeral rest) : tokenize (d.text ++ rest) = .number d :: tokenize rest := by
  obtain ⟨c, cs, htext, hc⟩ := d.head?_text
  have hscan : Decimal.scan (c :: cs) = (some d, []) :=
    Decimal.scan_eq_of_read? (htext ▸ Decimal.read?_text hd)
  have hsome : (Decimal.scan (c :: cs)).1.isSome ∨ Decimal.Unsigned rest := by
    rw [hscan]
    exact .inl rfl
  have happend := Decimal.scan_append hrest hsome
  have hstart : startsNumber c (cs ++ rest) := by simp [startsNumber, hc]
  rw [hscan] at happend
  rw [htext, List.cons_append, tokenize_cons, lexeme_of_startsNumber hstart, ← List.cons_append,
    happend]
  rfl

theorem head?_text_ne (d : Decimal) : d.text.head? ≠ some '-' := by
  obtain ⟨c, cs, htext, hc⟩ := d.head?_text
  rw [htext]
  rintro h
  obtain rfl := Option.some.inj h
  cases hc

/-- The text of a number of hundredths is cut into a minus, where it starts with one, and a
numeral. -/
theorem tokenize_ofHundredths_append (n : ℤ) {rest : List Char} (hrest : EndsNumeral rest) :
    tokenize ((Value.ofHundredths n).render ++ rest) =
      (if (Value.ofHundredths n).render.head? = some '-' then [.minus] else []) ++
        .number (.ofHundredths n.natAbs) :: tokenize rest := by
  have hnumeral := tokenize_text_append (d := .ofHundredths n.natAbs)
    (show (-2 : ℤ) ≤ 0 by decide) hrest
  rw [render_ofHundredths]
  split
  · rw [List.singleton_append, List.cons_append, tokenize_cons,
      lexeme_of_punctuation? (t := .minus) rfl, hnumeral]
    rfl
  · rw [List.nil_append, hnumeral, if_neg (head?_text_ne _)]
    rfl

/-! ### The double that is read -/

theorem abs_roundEven (q : ℚ) : |roundEven q| = roundEven |q| := by
  rcases le_total 0 q with h | h
  · rw [abs_of_nonneg h, abs_of_nonneg (roundEven_nonneg h)]
  · have hnonneg := roundEven_nonneg (neg_nonneg.2 h)
    rw [roundEven_neg] at hnonneg
    rw [abs_of_nonpos h, roundEven_neg, abs_of_nonpos (neg_nonneg.1 hnonneg)]

/-- The hundredths of a double are not beyond the greatest one, which is a whole number. -/
theorem abs_hundredths_div_le {x : Float} (hx : x.isFinite) :
    |(hundredths x : ℚ)| / 100 ≤ greatest := by
  obtain ⟨n, hn⟩ := exists_greatest_eq
  have hscaled : 100 * |Double.value x| ≤ ((100 * n : ℤ) : ℚ) := by
    push_cast
    exact hn ▸ mul_le_mul_of_nonneg_left (abs_value_le_greatest x) (by norm_num)
  have hrounded := roundEven_mono hscaled
  rw [roundEven_intCast] at hrounded
  have habs : |hundredths x| = roundEven (100 * |Double.value x|) := by
    rw [hundredths_eq hx, abs_roundEven, abs_mul, abs_of_pos (by norm_num : (0 : ℚ) < 100)]
  rw [div_le_iff₀ (by norm_num), mul_comm, hn, ← Int.cast_abs, habs]
  exact_mod_cast hrounded

/-- The numeral of a length names a finite double, the nearest one. -/
theorem isNearestDouble_hundredths {x : Float} (hx : x.isFinite) :
    (Decimal.ofHundredths (hundredths x).natAbs).toFloat.isFinite ∧
      IsNearestDouble (|hundredths x| / 100)
        (Decimal.ofHundredths (hundredths x).natAbs).toFloat := by
  have hrat : (Decimal.ofHundredths (hundredths x).natAbs).toRat = |(hundredths x : ℚ)| / 100 := by
    rw [Decimal.toRat, ← Int.cast_abs, ← Nat.cast_natAbs]
    norm_num [Decimal.ofHundredths, div_eq_mul_inv]
  have hnearest := isNearestDouble_toFloat (.ofHundredths (hundredths x).natAbs)
  have hrange : nearest (|(hundredths x : ℚ)| / 100) < 2 ^ (1024 : ℤ) :=
    calc nearest (|(hundredths x : ℚ)| / 100) ≤ nearest greatest :=
          nearest_mono (abs_hundredths_div_le hx)
      _ = greatest := nearest_greatest
      _ < 2 ^ (1024 : ℤ) := greatest_lt
  rw [hrat] at hnearest
  exact ⟨(hnearest.inRange hrange).1, by exact_mod_cast hnearest⟩

theorem hundredths_of_not_isFinite {x : Float} (hx : x.isFinite = false) : hundredths x = 0 := by
  cases h : ExactValue.ofFloat? x with
  | none => rw [hundredths, h]
  | some v => exact absurd (toRat_of_ofFloat?_eq h).1 (by simp [hx])

/-- **How a length is written and read.**  The text of a finite double says the hundredths nearest
to it and is cut into a minus, if it starts with one, and one numeral, which names the double
nearest to their magnitude; the text of any other double is `0.00`. -/
theorem render_lengthValue :
    (∀ x : Float, x.isFinite →
      SaysHundredths (lengthValue x).render (hundredths x) ∧
        IsNearestHundredths (Double.value x) (hundredths x) ∧
        ∀ rest : List Char, EndsNumeral rest →
          ∃ d : Decimal,
            tokenize ((lengthValue x).render ++ rest) =
              (if (lengthValue x).render.head? = some '-' then [.minus] else []) ++
                .number d :: tokenize rest ∧
            d.toFloat.isFinite ∧ IsNearestDouble (|hundredths x| / 100) d.toFloat) ∧
      (∀ x y : Float, x.isFinite → y.isFinite → x ≤ y → hundredths x ≤ hundredths y) ∧
      ∀ x : Float, x.isFinite = false → (lengthValue x).render = ['0', '.', '0', '0'] := by
  refine ⟨fun x hx => ⟨saysHundredths_render _, ?_, fun rest hrest => ?_⟩,
    fun x y => hundredths_mono, fun x hx => ?_⟩
  · rw [hundredths_eq hx]
    exact isNearestHundredths_roundEven _
  · exact ⟨_, tokenize_ofHundredths_append _ hrest, isNearestDouble_hundredths hx⟩
  · rw [lengthValue, hundredths_of_not_isFinite hx]
    decide

/-- An eighth below zero lies half way between two hundredths and is written as the even one. -/
theorem render_lengthValue_eighth :
    ((-0.125 : Float).isFinite ∧ EndsNumeral [']'] ∧ (0.375 : Float).isFinite ∧
        (-0.125 : Float) ≤ 0.375 ∧ (1.0 / 0.0 : Float).isFinite = false) ∧
      (lengthValue (-0.125)).render = "-0.12".toList ∧
      SaysHundredths (lengthValue (-0.125)).render (-12) ∧
      IsNearestHundredths (Double.value (-0.125)) (-12) ∧
      (∃ d : Decimal,
        tokenize ((lengthValue (-0.125)).render ++ [']']) = [.minus, .number d, .closeBracket] ∧
          d.toFloat.isFinite ∧ IsNearestDouble (|(-12 : ℤ)| / 100) d.toFloat) ∧
      -12 ≤ hundredths 0.375 ∧
      (lengthValue (1.0 / 0.0)).render = "0.00".toList := by
  have hfinite : (-0.125 : Float).isFinite := by decide +kernel
  have hfinite' : (0.375 : Float).isFinite := by decide +kernel
  have hinfinite : (1.0 / 0.0 : Float).isFinite = false := by decide +kernel
  have hle : (-0.125 : Float) ≤ 0.375 := by decide +kernel
  have hrest : EndsNumeral [']'] := by
    intro c hc
    obtain rfl := Option.some.inj hc
    decide
  have hhundredths : hundredths (-0.125) = -12 := by decide +kernel
  have htext : (lengthValue (-0.125)).render = "-0.12".toList := by decide +kernel
  have htokens : tokenize [']'] = [.closeBracket] := by decide +kernel
  obtain ⟨hwritten, hmono, hnone⟩ := render_lengthValue
  obtain ⟨hshown, hnearest, hread⟩ := hwritten (-0.125) hfinite
  obtain ⟨d, hd, hdouble⟩ := hread [']'] hrest
  rw [hhundredths] at hshown hnearest hdouble
  refine ⟨⟨hfinite, hrest, hfinite', hle, hinfinite⟩, htext, hshown, hnearest, ⟨d, ?_, hdouble⟩,
    hhundredths ▸ hmono _ _ hfinite hfinite' hle, hnone _ hinfinite⟩
  rw [hd, htokens, htext]
  rfl

end Script

end SolidScene
