import Mathlib.Algebra.Group.Nat.Defs
import Mathlib.Data.List.TakeWhile
import SolidScene.Decimal.Numeral

/-!
# Numerals read back

Two facts about `Decimal.scan`.  A numeral is cut off at the first character that cannot go on with
it, so what follows such a character has no influence on what is read (`scan_append`).  And the
text of a decimal whose power of ten is not positive reads back as that decimal (`read?_text`).
-/

namespace SolidScene

/-! ### Cutting off a row of characters -/

section Row

variable {p : Char → Bool} {rest : List Char}

theorem takeWhile_append_of_head (h : ∀ c ∈ rest.head?, p c = false) (cs : List Char) :
    (cs ++ rest).takeWhile p = cs.takeWhile p := by
  induction cs with
  | nil =>
    cases rest with
    | nil => rfl
    | cons c rest => simp [h c rfl]
  | cons c cs ih => simp only [List.cons_append, List.takeWhile_cons, ih]

theorem dropWhile_append_of_head (h : ∀ c ∈ rest.head?, p c = false) (cs : List Char) :
    (cs ++ rest).dropWhile p = cs.dropWhile p ++ rest := by
  induction cs with
  | nil =>
    cases rest with
    | nil => rfl
    | cons c rest => simp [h c rfl]
  | cons c cs ih =>
    simp only [List.cons_append, List.dropWhile_cons, ih]
    split <;> rfl

end Row

/-! ### Digits -/

theorem natOfDigits_eq_ofDigitChars (cs : List Char) :
    natOfDigits cs = Nat.ofDigitChars 10 cs 0 := by
  rw [natOfDigits_eq_foldl, Nat.ofDigitChars_eq_foldl]
  rfl

@[simp] theorem natOfDigits_digitsOfNat (n : Nat) : natOfDigits (digitsOfNat n) = n := by
  rw [natOfDigits_eq_ofDigitChars, digitsOfNat, Nat.ofDigitChars_ten_toDigits]

theorem isDigit_of_mem_digitsOfNat {n : Nat} {c : Char} (h : c ∈ digitsOfNat n) : c.isDigit :=
  Nat.isDigit_of_mem_toDigits (by decide) (by decide) h

theorem digitsOfNat_ne_nil (n : Nat) : digitsOfNat n ≠ [] := Nat.toDigits_ne_nil

theorem digitValue_digitChar {n : Nat} (h : n < 10) : digitValue (Nat.digitChar n) = n :=
  Nat.toNat_digitChar_sub_48_of_lt_ten h

theorem isDigit_of_mem_fixedDigits {width n : Nat} {c : Char} (h : c ∈ fixedDigits width n) :
    c.isDigit := by
  induction width generalizing n with
  | zero => cases h
  | succ width ih =>
    rcases List.mem_append.1 h with h | h
    · exact ih h
    · rw [List.mem_singleton.1 h, Nat.isDigit_digitChar, decide_eq_true_eq]
      omega

/-- A row of fixed digits spells the remainder by a power of ten. -/
theorem natOfDigits_append_fixedDigits (cs : List Char) (width n : Nat) :
    natOfDigits (cs ++ fixedDigits width n) = natOfDigits cs * 10 ^ width + n % 10 ^ width := by
  induction width generalizing n with
  | zero => simp [fixedDigits, Nat.mod_one]
  | succ width ih =>
    have hmod : n % 10 ^ (width + 1) = n % 10 + 10 * (n / 10 % 10 ^ width) := by
      rw [Nat.pow_succ', Nat.mod_mul]
    rw [fixedDigits, ← List.append_assoc, natOfDigits_append_singleton, ih,
      digitValue_digitChar (by omega), hmod, Nat.pow_succ']
    rw [Nat.mul_left_comm]
    omega

namespace Decimal

/-! ### A numeral and what follows it -/

/-- A text that starts with no character that a numeral may go on with, signs apart. -/
def EndsNumeral (rest : List Char) : Prop :=
  ∀ c ∈ rest.head?, c.isDigit = false ∧ c ≠ '.' ∧ c ≠ 'e' ∧ c ≠ 'E'

/-- A text that starts with no sign. -/
def Unsigned (rest : List Char) : Prop := ∀ c ∈ rest.head?, c ≠ '+' ∧ c ≠ '-'

section Append

variable {rest : List Char}

theorem scanFraction_append (h : EndsNumeral rest) (cs : List Char) :
    scanFraction (cs ++ rest) = ((scanFraction cs).1, (scanFraction cs).2 ++ rest) := by
  have hdigit : ∀ c ∈ rest.head?, c.isDigit = false := fun c hc => (h c hc).1
  cases cs with
  | nil =>
    cases rest with
    | nil => rfl
    | cons c rest => simp [scanFraction, (h c rfl).2.1]
  | cons c cs =>
    by_cases hc : c = '.'
    · subst hc
      simp only [List.cons_append, scanFraction, takeWhile_append_of_head hdigit,
        dropWhile_append_of_head hdigit]
    · simp [scanFraction, hc]

theorem scanPower_append (h : EndsNumeral rest) (negative : Bool) (cs : List Char) :
    scanPower negative (cs ++ rest) =
      ((scanPower negative cs).1, (scanPower negative cs).2 ++ rest) := by
  have hdigit : ∀ c ∈ rest.head?, c.isDigit = false := fun c hc => (h c hc).1
  simp only [scanPower, takeWhile_append_of_head hdigit, dropWhile_append_of_head hdigit]

theorem scanSignedPower_append (h : EndsNumeral rest) {cs : List Char}
    (hsign : cs ≠ [] ∨ Unsigned rest) :
    scanSignedPower (cs ++ rest) =
      ((scanSignedPower cs).1, (scanSignedPower cs).2 ++ rest) := by
  cases cs with
  | nil =>
    have hrest : scanSignedPower rest = scanPower false rest := by
      cases rest with
      | nil => rfl
      | cons c rest =>
        have hc := (hsign.resolve_left (by simp)) c rfl
        simp [scanSignedPower, hc]
    rw [List.nil_append, hrest]
    exact scanPower_append h false []
  | cons c cs =>
    by_cases hplus : c = '+'
    · subst hplus
      exact scanPower_append h false cs
    · by_cases hminus : c = '-'
      · subst hminus
        exact scanPower_append h true cs
      · have hpower (cs : List Char) : scanSignedPower (c :: cs) = scanPower false (c :: cs) := by
          simp [scanSignedPower, hplus, hminus]
        rw [List.cons_append, hpower, hpower]
        exact scanPower_append h false (c :: cs)

theorem scanExponent_append (h : EndsNumeral rest) {cs : List Char}
    (hsign : (scanExponent cs).1.isSome ∨ Unsigned rest) :
    scanExponent (cs ++ rest) = ((scanExponent cs).1, (scanExponent cs).2 ++ rest) := by
  -- a marker at the very end has no value, so a sign in `rest` cannot reach it
  have hmarker {cs : List Char} (hvalue : (scanSignedPower cs).1.isSome ∨ Unsigned rest) :
      cs ≠ [] ∨ Unsigned rest := by
    refine hvalue.imp_left fun hsome hnil => ?_
    subst hnil
    simp [scanSignedPower, scanPower] at hsome
  cases cs with
  | nil =>
    cases rest with
    | nil => rfl
    | cons c rest => simp [scanExponent, h c rfl]
  | cons c cs =>
    by_cases hlower : c = 'e'
    · subst hlower
      exact scanSignedPower_append h (hmarker hsign)
    · by_cases hupper : c = 'E'
      · subst hupper
        exact scanSignedPower_append h (hmarker hsign)
      · simp [scanExponent, hlower, hupper]

/-- What follows the end of a numeral is not read with it.  A sign may follow, unless the numeral
breaks off at the marker of its exponent. -/
theorem scan_append (h : EndsNumeral rest) {cs : List Char}
    (hsign : (scan cs).1.isSome ∨ Unsigned rest) :
    scan (cs ++ rest) = ((scan cs).1, (scan cs).2 ++ rest) := by
  have hdigit : ∀ c ∈ rest.head?, c.isDigit = false := fun c hc => (h c hc).1
  have hpower : (scanExponent (scanFraction (cs.dropWhile Char.isDigit)).2).1.isSome ∨
      Unsigned rest := by
    refine hsign.imp_left fun hsome => ?_
    simp only [scan] at hsome
    split at hsome
    · contradiction
    · simpa using hsome
  simp only [scan, takeWhile_append_of_head hdigit, dropWhile_append_of_head hdigit,
    scanFraction_append h, scanExponent_append h hpower]

end Append

/-! ### What a numeral takes -/

/-- The characters that may stand in a numeral. -/
def isNumeralChar (c : Char) : Bool :=
  c.isDigit || c == '.' || c == 'e' || c == 'E' || c == '+' || c == '-'

/-- A rest is what is left of a text after a row of characters of numerals. -/
def TakesNumeral (cs rest : List Char) : Prop :=
  ∃ taken, cs = taken ++ rest ∧ ∀ c ∈ taken, isNumeralChar c

theorem TakesNumeral.refl (cs : List Char) : TakesNumeral cs cs :=
  ⟨[], rfl, fun _ h => absurd h List.not_mem_nil⟩

theorem TakesNumeral.trans {cs ds rest : List Char} (h : TakesNumeral cs ds)
    (h' : TakesNumeral ds rest) : TakesNumeral cs rest := by
  obtain ⟨first, rfl, hfirst⟩ := h
  obtain ⟨second, rfl, hsecond⟩ := h'
  exact ⟨first ++ second, (List.append_assoc _ _ _).symm,
    List.forall_mem_append.2 ⟨hfirst, hsecond⟩⟩

theorem TakesNumeral.cons {c : Char} (hc : isNumeralChar c) {cs rest : List Char}
    (h : TakesNumeral cs rest) : TakesNumeral (c :: cs) rest := by
  obtain ⟨taken, rfl, htaken⟩ := h
  exact ⟨c :: taken, rfl, List.forall_mem_cons.2 ⟨hc, htaken⟩⟩

theorem takesNumeral_dropWhile (cs : List Char) :
    TakesNumeral cs (cs.dropWhile Char.isDigit) := by
  refine ⟨cs.takeWhile Char.isDigit, List.takeWhile_append_dropWhile.symm, fun c hc => ?_⟩
  simp [isNumeralChar, List.mem_takeWhile_imp hc]

theorem takesNumeral_scanFraction (cs : List Char) : TakesNumeral cs (scanFraction cs).2 := by
  unfold scanFraction
  split
  · exact (takesNumeral_dropWhile _).cons (by decide)
  · exact .refl _

theorem takesNumeral_scanSignedPower (cs : List Char) :
    TakesNumeral cs (scanSignedPower cs).2 := by
  unfold scanSignedPower scanPower
  split
  · exact (takesNumeral_dropWhile _).cons (by decide)
  · exact (takesNumeral_dropWhile _).cons (by decide)
  · exact takesNumeral_dropWhile _

theorem takesNumeral_scanExponent (cs : List Char) : TakesNumeral cs (scanExponent cs).2 := by
  unfold scanExponent
  split
  · exact (takesNumeral_scanSignedPower _).cons (by decide)
  · exact (takesNumeral_scanSignedPower _).cons (by decide)
  · exact .refl _

/-- A scan takes nothing but characters of numerals. -/
theorem takesNumeral_scan (cs : List Char) : TakesNumeral cs (scan cs).2 :=
  ((takesNumeral_dropWhile cs).trans (takesNumeral_scanFraction _)).trans
    (takesNumeral_scanExponent _)

/-! ### The text of a decimal -/

theorem scan_eq_of_read? {cs : List Char} {d : Decimal} (h : read? cs = some d) :
    scan cs = (some d, []) := by
  unfold read? at h
  split at h
  · next heq =>
    obtain rfl := Option.some.inj h
    exact heq
  · contradiction

theorem scan_digits {whole : List Char} (hdigits : ∀ c ∈ whole, c.isDigit) (hne : whole ≠ []) :
    scan whole = (some ⟨natOfDigits whole, 0⟩, []) := by
  have htake : whole.takeWhile Char.isDigit = whole := List.takeWhile_eq_self_iff.2 hdigits
  have hdrop : whole.dropWhile Char.isDigit = [] := List.dropWhile_eq_nil_iff.2 hdigits
  simp [scan, htake, hdrop, scanFraction, scanExponent, hne]

theorem scan_digits_point {whole fraction : List Char} (hwhole : ∀ c ∈ whole, c.isDigit)
    (hfraction : ∀ c ∈ fraction, c.isDigit) (hne : whole ++ fraction ≠ []) :
    scan (whole ++ '.' :: fraction) =
      (some ⟨natOfDigits (whole ++ fraction), -fraction.length⟩, []) := by
  have htake : fraction.takeWhile Char.isDigit = fraction := List.takeWhile_eq_self_iff.2 hfraction
  have hdrop : fraction.dropWhile Char.isDigit = [] := List.dropWhile_eq_nil_iff.2 hfraction
  have hpoint : ¬ ('.' : Char).isDigit := by decide
  have hsome : (whole.isEmpty && fraction.isEmpty) = false := by
    simpa [Bool.and_eq_false_imp, ← Bool.not_eq_true] using hne
  simp only [scan, List.takeWhile_append_of_pos hwhole, List.dropWhile_append_of_pos hwhole,
    List.takeWhile_cons_of_neg hpoint, List.dropWhile_cons_of_neg hpoint, List.append_nil,
    scanFraction, htake, hdrop, hsome]
  simp [scanExponent]

/-- A decimal whose power of ten is not positive is the one that its text spells. -/
theorem read?_text {d : Decimal} (h : d.exponent ≤ 0) : read? d.text = some d := by
  obtain ⟨digits, exponent⟩ := d
  replace h : exponent ≤ 0 := h
  have hscan : scan (text ⟨digits, exponent⟩) = (some ⟨digits, exponent⟩, []) := by
    unfold text
    split
    · next hnonneg =>
      obtain rfl : exponent = 0 := Int.le_antisymm h hnonneg
      rw [scan_digits (fun _ => isDigit_of_mem_digitsOfNat) (digitsOfNat_ne_nil _)]
      simp
    · have hplaces : -(exponent.natAbs : Int) = exponent := by omega
      rw [scan_digits_point (fun _ => isDigit_of_mem_digitsOfNat)
        (fun _ => isDigit_of_mem_fixedDigits)
        (List.append_ne_nil_of_left_ne_nil (digitsOfNat_ne_nil _) _),
        natOfDigits_append_fixedDigits, natOfDigits_digitsOfNat, length_fixedDigits, Nat.pow_eq,
        Nat.div_add_mod', hplaces]
  simp [read?, hscan]

theorem head?_text (d : Decimal) : ∃ c cs, d.text = c :: cs ∧ c.isDigit := by
  have hdigits (n : Nat) : ∃ c cs, digitsOfNat n = c :: cs ∧ c.isDigit := by
    obtain ⟨c, cs, hcs⟩ := List.exists_cons_of_ne_nil (digitsOfNat_ne_nil n)
    exact ⟨c, cs, hcs, isDigit_of_mem_digitsOfNat (hcs ▸ List.mem_cons_self)⟩
  unfold text
  split
  · exact hdigits _
  · obtain ⟨c, cs, hcs, hc⟩ := hdigits (d.digits / Nat.pow 10 d.exponent.natAbs)
    exact ⟨c, _, congrArg (· ++ '.' :: fixedDigits _ _) hcs, hc⟩

end Decimal

/-- A text that starts with a digit has no sign in front. -/
theorem readFloat?_of_isDigit {cs : List Char} (h : ∀ c ∈ cs.head?, c.isDigit) :
    readFloat? cs = readMagnitude? cs := by
  unfold readFloat?
  split
  · exact absurd (h '-' rfl) (by decide)
  · exact absurd (h '+' rfl) (by decide)
  · rfl

end SolidScene
