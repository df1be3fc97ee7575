/-!
# Decimals

A decimal is a natural number times a power of ten, `digits · 10 ^ exponent`: what a numeral
says, exactly.  `Decimal.toFloat` is the double nearest to it and `Decimal.text` the numeral
that says it.  Digits are read and written most significant first.
-/

namespace SolidScene

/-- The number `digits · 10 ^ exponent`. -/
structure Decimal where
  digits : Nat
  exponent : Int
  deriving DecidableEq, Repr

namespace Decimal

/-- The number of places after the point. -/
def places (d : Decimal) : Nat := (-d.exponent).toNat

/-- The power to which two exceeds all doubles. -/
def binaryLimit : Nat := 1024

/-- Whether the length of the digits alone shows that a decimal exceeds all doubles. -/
def isHuge (d : Decimal) : Bool := binaryLimit + (10 * d.places + 2) / 3 ≤ d.digits.log2

/-- The nearest double, ties going to the even significand; infinity beyond the largest one.  A huge
decimal is told first, since rounding takes a step for each bit that it drops. -/
def toFloat (d : Decimal) : Float :=
  if d.isHuge then 1.0 / 0.0
  else Float.ofScientific d.digits (d.exponent < 0) d.exponent.natAbs

/-- A natural number of hundredths. -/
def ofHundredths (n : Nat) : Decimal := ⟨n, -2⟩

theorem ten_pow_le (k : Nat) : Nat.pow 10 k ≤ Nat.pow 2 ((10 * k + 2) / 3) := by
  change 10 ^ k ≤ 2 ^ ((10 * k + 2) / 3)
  rw [← Nat.pow_le_pow_iff_left (show 3 ≠ 0 by decide)]
  calc (10 ^ k) ^ 3
      = 1000 ^ k := by rw [← Nat.pow_mul, Nat.mul_comm, Nat.pow_mul]
    _ ≤ 1024 ^ k := Nat.pow_le_pow_left (by decide) k
    _ = 2 ^ (10 * k) := (Nat.pow_mul 2 10 k).symm
    _ ≤ 2 ^ ((10 * k + 2) / 3 * 3) := Nat.pow_le_pow_right (by decide) (by omega)
    _ = (2 ^ ((10 * k + 2) / 3)) ^ 3 := Nat.pow_mul 2 _ 3

theorem two_pow_mul_ten_pow_le (m k : Nat) :
    Nat.pow 2 m * Nat.pow 10 k ≤ Nat.pow 2 (m + (10 * k + 2) / 3) :=
  calc Nat.pow 2 m * Nat.pow 10 k
      ≤ Nat.pow 2 m * Nat.pow 2 ((10 * k + 2) / 3) := Nat.mul_le_mul_left _ (ten_pow_le k)
    _ = Nat.pow 2 (m + (10 * k + 2) / 3) := (Nat.pow_add 2 m _).symm

theorem le_digits_of_isHuge {d : Decimal} (h : d.isHuge) :
    Nat.pow 2 binaryLimit * Nat.pow 10 d.places ≤ d.digits := by
  have log2_ge : binaryLimit + (10 * d.places + 2) / 3 ≤ d.digits.log2 := by simpa [isHuge] using h
  have digits_ne_zero : d.digits ≠ 0 := by
    intro zero
    rw [zero, Nat.log2_zero, binaryLimit] at log2_ge
    omega
  exact Nat.le_trans (two_pow_mul_ten_pow_le _ _) ((Nat.le_log2 digits_ne_zero).1 log2_ge)

end Decimal

/-! ### Digits -/

/-- The value of a decimal digit. -/
def digitValue (c : Char) : Nat := c.toNat - '0'.toNat

/-- The power of ten at which a block of digits is full.  Smaller blocks fit in a word. -/
def fullBlock : Nat := Nat.pow 10 18

/-- The number that a row of digits spells after the digits of `n` and of `block`, where `scale`
is ten to the number of digits in the block.  The digits are gathered in blocks because a step on
a block costs the same however many digits came before it. -/
def spellDigits (n block scale : Nat) : List Char → Nat
  | [] => n * scale + block
  | c :: cs =>
    if scale < fullBlock then spellDigits n (10 * block + digitValue c) (10 * scale) cs
    else spellDigits (n * scale + block) (digitValue c) 10 cs

/-- The number that a row of digits spells. -/
def natOfDigits (cs : List Char) : Nat := spellDigits 0 0 1 cs

theorem spellDigits_eq_foldl (n block scale : Nat) (cs : List Char) :
    spellDigits n block scale cs =
      cs.foldl (fun n c => 10 * n + digitValue c) (n * scale + block) := by
  induction cs generalizing n block scale with
  | nil => rfl
  | cons c cs ih =>
    have h : n * (10 * scale) + (10 * block + digitValue c) =
        10 * (n * scale + block) + digitValue c := by
      rw [Nat.mul_left_comm, Nat.mul_add, Nat.add_assoc]
    rw [spellDigits, List.foldl_cons]
    split
    · rw [ih, h]
    · rw [ih, Nat.mul_comm _ 10]

theorem natOfDigits_eq_foldl (cs : List Char) :
    natOfDigits cs = cs.foldl (fun n c => 10 * n + digitValue c) 0 := by
  simp [natOfDigits, spellDigits_eq_foldl]

@[simp] theorem natOfDigits_nil : natOfDigits [] = 0 := rfl

theorem natOfDigits_append_singleton (cs : List Char) (c : Char) :
    natOfDigits (cs ++ [c]) = 10 * natOfDigits cs + digitValue c := by
  simp [natOfDigits_eq_foldl]

/-- The digits of a number, most significant first. -/
def digitsOfNat (n : Nat) : List Char := Nat.toDigits 10 n

/-- The number of digits of a number; `0` has one. -/
def digitCount (n : Nat) : Nat := (digitsOfNat n).length

/-- The last `width` digits of a number, with zeros in front where it has fewer. -/
def fixedDigits : (width : Nat) → Nat → List Char
  | 0, _ => []
  | width + 1, n => fixedDigits width (n / 10) ++ [Nat.digitChar (n % 10)]

@[simp] theorem length_fixedDigits (width n : Nat) : (fixedDigits width n).length = width := by
  induction width generalizing n with
  | zero => rfl
  | succ width ih => simp [fixedDigits, ih]

/-- A row of `n` zeros. -/
def zeros (n : Nat) : List Char := List.replicate n '0'

/-! ### The numeral of a decimal -/

/-- The numeral of a decimal: a point where there are places after it, never an exponent. -/
def Decimal.text (d : Decimal) : List Char :=
  if 0 ≤ d.exponent then digitsOfNat (d.digits * Nat.pow 10 d.exponent.toNat)
  else
    let places := d.exponent.natAbs
    digitsOfNat (d.digits / Nat.pow 10 places) ++ '.' :: fixedDigits places d.digits

end SolidScene
