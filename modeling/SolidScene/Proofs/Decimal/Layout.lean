import SolidScene.Decimal.Layout
import SolidScene.Proofs.Double.Decimal
import SolidScene.Proofs.Json.Numeral

/-!
# How decimals are laid out

Whatever the format, the numeral that is written for a decimal says this decimal
(`toRat_writeMagnitude`), and a document may hold it (`isPlain_writeMagnitude`).  Its digits are
those of the decimal, without the zeros at their end; more of them are written only in front of them
or up to the point.
-/

namespace SolidScene

/-- The number that a numeral says. -/
def Numeral.toRat (n : Numeral) : ℚ :=
  natOfDigits (n.whole ++ n.fraction) * 10 ^ (n.exponent.getD 0 - n.fraction.length)

/-! ### Rows of digits -/

theorem natOfDigits_append (cs ds : List Char) :
    natOfDigits (cs ++ ds) = natOfDigits cs * 10 ^ ds.length + natOfDigits ds := by
  induction ds using List.reverseRecOn with
  | nil => simp
  | append_singleton ds d ih =>
    rw [← List.append_assoc, natOfDigits_append_singleton, natOfDigits_append_singleton, ih,
      List.length_append, List.length_singleton, pow_succ]
    ring

theorem natOfDigits_cons (c : Char) (cs : List Char) :
    natOfDigits (c :: cs) = digitValue c * 10 ^ cs.length + natOfDigits cs := by
  have hsingle : natOfDigits [c] = digitValue c := by
    simpa using natOfDigits_append_singleton [] c
  rw [← List.singleton_append, natOfDigits_append, hsingle]

@[simp] theorem natOfDigits_zeros (n : ℕ) : natOfDigits (zeros n) = 0 := by
  induction n with
  | zero => rfl
  | succ n ih =>
    rw [zeros, List.replicate_succ', natOfDigits_append_singleton]
    change 10 * natOfDigits (zeros n) + 0 = 0
    rw [ih]

@[simp] theorem length_zeros (n : ℕ) : (zeros n).length = n := List.length_replicate

theorem natOfDigits_append_zeros (cs : List Char) (n : ℕ) :
    natOfDigits (cs ++ zeros n) = natOfDigits cs * 10 ^ n := by
  rw [natOfDigits_append, natOfDigits_zeros, length_zeros, add_zero]

theorem natOfDigits_zeros_append (cs : List Char) (n : ℕ) :
    natOfDigits (zeros n ++ cs) = natOfDigits cs := by
  rw [natOfDigits_append, natOfDigits_zeros, zero_mul, zero_add]

theorem toNat_of_isDigit {c : Char} (hc : c.isDigit) : 48 ≤ c.toNat ∧ c.toNat ≤ 57 := by
  simpa [Char.isDigit, UInt32.le_iff_toNat_le] using hc

theorem digitValue_lt {c : Char} (hc : c.isDigit) : digitValue c < 10 := by
  have hrange := toNat_of_isDigit hc
  change c.toNat - 48 < 10
  omega

theorem digitValue_pos {c : Char} (hc : c.isDigit) (hne : c ≠ '0') : 0 < digitValue c := by
  have hrange := toNat_of_isDigit hc
  have hdiffer : 48 ≠ c.toNat := fun h =>
    hne (Char.toNat_inj.1 (show c.toNat = '0'.toNat from h.symm))
  change 0 < c.toNat - 48
  omega

theorem natOfDigits_lt {cs : List Char} (h : ∀ c ∈ cs, c.isDigit) :
    natOfDigits cs < 10 ^ cs.length := by
  induction cs using List.reverseRecOn with
  | nil => simp
  | append_singleton cs c ih =>
    have hinit := ih fun d hd => h d (List.mem_append_left _ hd)
    have hlast := digitValue_lt (h c (by simp))
    rw [natOfDigits_append_singleton, List.length_append, List.length_singleton, pow_succ]
    omega

theorem isDigit_of_mem_zeros {n : ℕ} {c : Char} (h : c ∈ zeros n) : c.isDigit := by
  obtain rfl := List.eq_of_mem_replicate h
  decide

/-- A number other than zero does not start with a zero. -/
theorem head?_digitsOfNat_ne {n : ℕ} (hn : 0 < n) : (digitsOfNat n).head? ≠ some '0' := by
  induction n using Nat.strong_induction_on with
  | _ n ih =>
    rcases Nat.lt_or_ge n 10 with hlt | hge
    · rw [digitsOfNat, Nat.toDigits_of_lt_base hlt]
      interval_cases n <;> decide
    · have hhead := ih (n / 10) (by omega) (by omega)
      rw [digitsOfNat, Nat.toDigits_of_base_le (by decide) hge, List.head?_append_of_ne_nil]
      · exact hhead
      · exact Nat.toDigits_ne_nil

namespace NumberFormat

/-! ### The digits that are laid out -/

/-- A row of digits that starts with no zero. -/
structure IsRow (digits : List Char) : Prop where
  isDigit : ∀ c ∈ digits, c.isDigit
  ne_nil : digits ≠ []
  head_ne : digits.head? ≠ some '0'

theorem IsRow.take {digits : List Char} (h : IsRow digits) {k : ℕ} (hk : 0 < k) :
    IsRow (digits.take k) where
  isDigit c hc := h.isDigit c (List.mem_of_mem_take hc)
  ne_nil := by simp [hk.ne', h.ne_nil]
  head_ne := by
    rw [List.head?_take, if_neg hk.ne']
    exact h.head_ne

theorem IsRow.append {digits ds : List Char} (h : IsRow digits) (hds : ∀ c ∈ ds, c.isDigit) :
    IsRow (digits ++ ds) where
  isDigit := List.forall_mem_append.2 ⟨h.isDigit, hds⟩
  ne_nil := List.append_ne_nil_of_left_ne_nil h.ne_nil _
  head_ne := by
    rw [List.head?_append_of_ne_nil _ h.ne_nil]
    exact h.head_ne

/-- The digits of a decimal are those that are laid out, and then zeros. -/
theorem exists_digitsOfNat_eq (d : Decimal) :
    ∃ k, digitsOfNat d.digits = (digitsAndPlace d).1 ++ zeros k := by
  set digits := digitsOfNat d.digits with hdigits
  have hsplit := congrArg List.reverse
    (List.takeWhile_append_dropWhile (p := (· == '0')) (l := digits.reverse))
  rw [List.reverse_append, List.reverse_reverse] at hsplit
  refine ⟨(digits.reverse.takeWhile (· == '0')).length, hsplit.symm.trans ?_⟩
  have hzeros : ∀ c ∈ digits.reverse.takeWhile (· == '0'), c = '0' := fun c hc => by
    simpa using List.mem_takeWhile_imp hc
  have hreverse : (digits.reverse.takeWhile (· == '0')).reverse =
      zeros (digits.reverse.takeWhile (· == '0')).length := by
    refine List.eq_replicate_iff.2 ⟨List.length_reverse, fun c hc => ?_⟩
    exact hzeros c (List.mem_reverse.1 hc)
  rw [hreverse]
  rfl

/-- The number of a row of digits whose first one stands at a place. -/
def rowValue (digits : List Char) (place : ℤ) : ℚ :=
  natOfDigits digits * 10 ^ (place + 1 - digits.length)

/-- What is laid out is a row of digits with the number of the decimal, and spells no more than its
digits. -/
theorem digitsAndPlace_spec {d : Decimal} (hd : 0 < d.digits) :
    IsRow (digitsAndPlace d).1 ∧ rowValue (digitsAndPlace d).1 (digitsAndPlace d).2 = d.toRat ∧
      natOfDigits (digitsAndPlace d).1 ≤ d.digits := by
  obtain ⟨k, hk⟩ := exists_digitsOfNat_eq d
  have hplace : (digitsAndPlace d).2 = (digitsOfNat d.digits).length - 1 + d.exponent := rfl
  have hvalue : natOfDigits (digitsAndPlace d).1 * 10 ^ k = d.digits := by
    rw [← natOfDigits_append_zeros, ← hk, natOfDigits_digitsOfNat]
  rw [hplace, hk, List.length_append, length_zeros]
  generalize (digitsAndPlace d).1 = digits at hk hvalue ⊢
  have hne : digits ≠ [] := by
    rintro rfl
    rw [natOfDigits_nil, zero_mul] at hvalue
    omega
  have hhead : digits.head? ≠ some '0' := by
    have := head?_digitsOfNat_ne hd
    rwa [hk, List.head?_append_of_ne_nil _ hne] at this
  refine ⟨⟨fun c hc => ?_, hne, hhead⟩, ?_, ?_⟩
  · exact isDigit_of_mem_digitsOfNat (hk ▸ List.mem_append_left _ hc)
  · have hexponent : ((digits.length + k : ℕ) : ℤ) - 1 + d.exponent + 1 - digits.length =
        k + d.exponent := by
      push_cast
      ring
    rw [rowValue, hexponent, zpow_add₀ (by norm_num), zpow_natCast, ← mul_assoc, Decimal.toRat,
      ← hvalue]
    push_cast
    rfl
  · exact hvalue ▸ Nat.le_mul_of_pos_right _ (pow_pos (by norm_num) k)

/-- The place of a row is the leading place of its number. -/
theorem rowValue_bounds {digits : List Char} (h : IsRow digits) (place : ℤ) :
    10 ^ place ≤ rowValue digits place ∧ rowValue digits place < 10 ^ (place + 1) := by
  obtain ⟨c, cs, rfl⟩ := List.exists_cons_of_ne_nil h.ne_nil
  have hlt := natOfDigits_lt h.isDigit
  have hle : 10 ^ cs.length ≤ natOfDigits (c :: cs) := by
    rw [natOfDigits_cons]
    have hdigit := h.isDigit c List.mem_cons_self
    have hne : c ≠ '0' := fun heq => h.head_ne (by rw [heq]; rfl)
    have hpos := digitValue_pos hdigit hne
    exact (Nat.le_mul_of_pos_left _ hpos).trans (Nat.le_add_right _ _)
  have hlength : place + 1 - (c :: cs).length = place - cs.length := by
    rw [List.length_cons]
    push_cast
    ring
  have hten := Double.ten_zpow_pos (place - cs.length)
  have hsplit (k : ℤ) :
      (10 : ℚ) ^ (place + k) = 10 ^ (cs.length + k) * 10 ^ (place - cs.length) := by
    rw [← zpow_add₀ (by norm_num)]
    congr 1
    ring
  rw [rowValue, hlength, hsplit 1, ← add_zero place, hsplit 0, add_zero, add_zero]
  constructor
  · refine mul_le_mul_of_nonneg_right ?_ hten.le
    rw [zpow_natCast]
    exact_mod_cast hle
  · refine mul_lt_mul_of_pos_right ?_ hten
    rw [← Nat.cast_succ, zpow_natCast]
    exact_mod_cast hlt

/-! ### The numeral of a row -/

section Row

variable {digits : List Char} {place : ℤ} (format : NumberFormat)

theorem wholeFraction_eq_zeros : ∃ k, format.wholeFraction = zeros k ∧ k ≤ 1 := by
  unfold wholeFraction
  split
  · exact ⟨1, rfl, le_rfl⟩
  · exact ⟨0, rfl, zero_le_one⟩

theorem toRat_writeInPlace (digits : List Char) (place : ℤ) :
    (format.writeInPlace digits place).toRat = rowValue digits place := by
  rw [writeInPlace, rowValue]
  split
  · next hneg =>
    have hrow :
        natOfDigits (['0'] ++ (zeros (-place - 1).toNat ++ digits)) = natOfDigits digits := by
      rw [← List.append_assoc]
      exact natOfDigits_zeros_append digits ((-place - 1).toNat + 1)
    have hexponent : (0 : ℤ) - (((-place - 1).toNat + digits.length : ℕ) : ℤ) =
        place + 1 - digits.length := by
      push_cast
      omega
    rw [Numeral.toRat]
    simp only [hrow, List.length_append, length_zeros, Option.getD_none, hexponent]
  · next hnonneg =>
    simp only
    split
    · next hlt =>
      have hexponent : (0 : ℤ) - ((digits.length - (place.toNat + 1) : ℕ) : ℤ) =
          place + 1 - digits.length := by omega
      rw [Numeral.toRat]
      simp only [List.take_append_drop, List.length_drop, Option.getD_none, hexponent]
    · next hge =>
      obtain ⟨k, hk, -⟩ := wholeFraction_eq_zeros format
      have hexponent : place + 1 - digits.length = (place.toNat + 1 - digits.length : ℕ) := by omega
      rw [Numeral.toRat, hk, hexponent]
      simp only [natOfDigits_append_zeros, length_zeros, Option.getD_none, zero_sub, zpow_neg,
        zpow_natCast]
      push_cast
      rw [mul_inv_cancel_right₀ (pow_ne_zero _ (by norm_num))]

theorem toRat_writeScaled (hne : digits ≠ []) :
    (writeScaled digits place).toRat = rowValue digits place := by
  have hpos := List.length_pos_iff.2 hne
  have hexponent : place - ((digits.length - 1 : ℕ) : ℤ) = place + 1 - digits.length := by omega
  rw [Numeral.toRat, rowValue]
  simp only [writeScaled, List.take_append_drop, List.length_drop, Option.getD_some, hexponent]

theorem exponent_writeInPlace (digits : List Char) (place : ℤ) :
    (format.writeInPlace digits place).exponent = none := by
  rw [writeInPlace]
  split
  · rfl
  · simp only
    split <;> rfl

/-- In place no more zeros are written after a row than up to the point and one after it. -/
theorem natOfDigits_writeInPlace_le (h : ∀ c ∈ digits, c.isDigit) (place : ℤ) :
    natOfDigits ((format.writeInPlace digits place).whole ++
        (format.writeInPlace digits place).fraction) ≤
      max (natOfDigits digits) (10 ^ (place.toNat + 2)) := by
  rw [writeInPlace]
  split
  · refine le_max_of_le_left (le_of_eq ?_)
    change natOfDigits (zeros 1 ++ (zeros _ ++ digits)) = _
    rw [natOfDigits_zeros_append, natOfDigits_zeros_append]
  · simp only
    split
    · rw [List.take_append_drop]
      exact le_max_left _ _
    · next hge =>
      obtain ⟨k, hk, hle⟩ := wholeFraction_eq_zeros format
      refine le_max_of_le_right ((natOfDigits_lt fun c hc => ?_).le.trans
        (Nat.pow_le_pow_right (by norm_num) ?_))
      · rw [hk] at hc
        simp only [List.mem_append] at hc
        rcases hc with (hc | hc) | hc
        · exact h c hc
        · exact isDigit_of_mem_zeros hc
        · exact isDigit_of_mem_zeros hc
      · simp only [hk, List.length_append, length_zeros]
        omega

theorem isPlain_of_isRow {whole fraction : List Char} (h : IsRow whole)
    (hfraction : ∀ c ∈ fraction, c.isDigit) (exponent : Option ℤ) :
    Numeral.IsPlain ⟨whole, fraction, exponent⟩ :=
  ⟨h.isDigit, h.ne_nil, fun hzero => absurd hzero h.head_ne, hfraction⟩

theorem isPlain_of_zero {fraction : List Char} (hfraction : ∀ c ∈ fraction, c.isDigit) :
    Numeral.IsPlain ⟨['0'], fraction, none⟩ :=
  ⟨by simp, by simp, fun _ => rfl, hfraction⟩

theorem isDigit_of_mem_wholeFraction {c : Char} (h : c ∈ format.wholeFraction) : c.isDigit := by
  obtain ⟨k, hk, -⟩ := wholeFraction_eq_zeros format
  exact isDigit_of_mem_zeros (hk ▸ h)

theorem isPlain_writeInPlace (h : IsRow digits) (place : ℤ) :
    (format.writeInPlace digits place).IsPlain := by
  rw [writeInPlace]
  split
  · exact isPlain_of_zero (List.forall_mem_append.2 ⟨fun _ => isDigit_of_mem_zeros, h.isDigit⟩)
  · simp only
    split
    · exact isPlain_of_isRow (h.take (Nat.succ_pos _))
        (fun c hc => h.isDigit c (List.mem_of_mem_drop hc)) none
    · exact isPlain_of_isRow (h.append fun _ => isDigit_of_mem_zeros)
        (fun _ => isDigit_of_mem_wholeFraction format) none

theorem isPlain_writeScaled (h : IsRow digits) (place : ℤ) : (writeScaled digits place).IsPlain :=
  isPlain_of_isRow (h.take zero_lt_one) (fun c hc => h.isDigit c (List.mem_of_mem_drop hc)) _

end Row

/-! ### The numeral of a decimal -/

/-- The numeral of a decimal is a zero, or that of a row of digits. -/
theorem writeMagnitude_eq (format : NumberFormat) (d : Decimal) :
    (d.digits = 0 ∧ format.writeMagnitude d = ⟨['0'], format.wholeFraction, none⟩) ∨
      0 < d.digits ∧
        (format.writeMagnitude d = format.writeInPlace (digitsAndPlace d).1 (digitsAndPlace d).2 ∨
          format.writeMagnitude d = writeScaled (digitsAndPlace d).1 (digitsAndPlace d).2) := by
  rw [writeMagnitude]
  split
  · next hzero => exact .inl ⟨hzero, rfl⟩
  · next hne =>
    refine .inr ⟨Nat.pos_of_ne_zero hne, ?_⟩
    simp only
    split
    · exact .inl rfl
    · split
      · exact .inl rfl
      · exact .inr rfl

/-- **The numeral of a decimal** says this decimal. -/
theorem toRat_writeMagnitude (format : NumberFormat) (d : Decimal) :
    (format.writeMagnitude d).toRat = d.toRat := by
  rcases writeMagnitude_eq format d with ⟨hzero, heq⟩ | ⟨hpos, heq⟩
  · obtain ⟨k, hk, -⟩ := wholeFraction_eq_zeros format
    have hrow : natOfDigits (['0'] ++ zeros k) = 0 := natOfDigits_zeros (k + 1)
    rw [heq, Numeral.toRat, hk, Decimal.toRat, hzero, hrow, Nat.cast_zero, zero_mul, zero_mul]
  · obtain ⟨hrow, hvalue, -⟩ := digitsAndPlace_spec hpos
    rcases heq with heq | heq <;> rw [heq, ← hvalue]
    · exact toRat_writeInPlace format _ _
    · exact toRat_writeScaled hrow.ne_nil

/-- **The numeral of a decimal** is one that a document may hold. -/
theorem isPlain_writeMagnitude (format : NumberFormat) (d : Decimal) :
    (format.writeMagnitude d).IsPlain := by
  rcases writeMagnitude_eq format d with ⟨-, heq⟩ | ⟨hpos, heq⟩
  · rw [heq]
    exact isPlain_of_zero fun _ => isDigit_of_mem_wholeFraction format
  · have hrow := (digitsAndPlace_spec hpos).1
    rcases heq with heq | heq <;> rw [heq]
    · exact isPlain_writeInPlace format hrow _
    · exact isPlain_writeScaled hrow _

/-- The digits of a numeral, its point left out, say no more than those of the decimal and those
that fit in front of the point. -/
theorem natOfDigits_writeMagnitude_le {format : NumberFormat} {first last : ℤ}
    (hrange : format.inPlace = some (first, last)) (d : Decimal) :
    natOfDigits ((format.writeMagnitude d).whole ++ (format.writeMagnitude d).fraction) ≤
      max d.digits (10 ^ (last.toNat + 2)) := by
  rw [writeMagnitude]
  split
  · obtain ⟨k, hk, -⟩ := wholeFraction_eq_zeros format
    rw [hk]
    exact (natOfDigits_zeros (k + 1)).le.trans (Nat.zero_le _)
  · next hne =>
    obtain ⟨hrow, -, hle⟩ := digitsAndPlace_spec (Nat.pos_of_ne_zero hne)
    generalize digitsAndPlace d = r at hrow hle ⊢
    simp only [hrange]
    split
    · next hplace =>
      refine (natOfDigits_writeInPlace_le format hrow.isDigit _).trans (max_le_max hle ?_)
      exact Nat.pow_le_pow_right (by norm_num) (by omega)
    · refine le_max_of_le_left (le_trans (le_of_eq ?_) hle)
      rw [writeScaled, List.take_append_drop]

/-- The exponent of a numeral, if it has one, is the leading place of the decimal. -/
theorem exponent_writeMagnitude {format : NumberFormat} {d : Decimal} {e : ℤ}
    (h : (format.writeMagnitude d).exponent = some e) :
    10 ^ e ≤ d.toRat ∧ d.toRat < 10 ^ (e + 1) := by
  rcases writeMagnitude_eq format d with ⟨-, heq⟩ | ⟨hpos, heq | heq⟩
  · rw [heq] at h
    cases h
  · rw [heq, exponent_writeInPlace] at h
    cases h
  · obtain ⟨hrow, hvalue, -⟩ := digitsAndPlace_spec hpos
    rw [heq] at h
    obtain rfl := Option.some.inj h
    rw [← hvalue]
    exact rowValue_bounds hrow _

end NumberFormat

end SolidScene
