import SolidScene.Decimal.Basic

/-!
# The exact value of a double

A finite double is a sign and a natural number times a power of two.  All that is written
about doubles is worked out from this value over the natural numbers, so nothing is lost on
the way to the text.
-/

namespace SolidScene

/-- The number `± mantissa · 2 ^ exponent`. -/
structure ExactValue where
  negative : Bool
  mantissa : Nat
  exponent : Int
  deriving DecidableEq, Repr

namespace ExactValue

/-- The exact value of a double, unless it is infinite or not a number. -/
def ofFloat? (x : Float) : Option ExactValue :=
  match x.toModel.unpack with
  | .finite .negative m e _ => some ⟨true, m, e⟩
  | .finite .positive m e _ => some ⟨false, m, e⟩
  | .zero .negative => some ⟨true, 0, 0⟩
  | .zero .positive => some ⟨false, 0, 0⟩
  | .infinity _ => none
  | .notANumber => none

/-- The magnitude is `numerator / denominator`. -/
def numerator (v : ExactValue) : Nat := v.mantissa * Nat.pow 2 v.exponent.toNat

/-- The magnitude is `numerator / denominator`. -/
def denominator (v : ExactValue) : Nat := Nat.pow 2 (-v.exponent).toNat

theorem denominator_pos (v : ExactValue) : 0 < v.denominator := Nat.two_pow_pos _

/-- Every binary fraction is a decimal: `2 ^ (-k) = 5 ^ k · 10 ^ (-k)`. -/
def toDecimal (v : ExactValue) : Decimal :=
  if 0 ≤ v.exponent then ⟨v.numerator, 0⟩
  else ⟨v.mantissa * Nat.pow 5 (-v.exponent).toNat, v.exponent⟩

end ExactValue

/-! ### Rounding a quotient -/

/-- Where a number half way between two neighbours goes. -/
inductive Tie
  /-- To the neighbour that is even. -/
  | even
  /-- To the greater neighbour. -/
  | up
  deriving DecidableEq, Repr

/-- Whether the lower neighbour `low` of `low + rest / den` is the one to round to. -/
def Tie.prefersLower (tie : Tie) (low rest den : Nat) : Bool :=
  2 * rest < den || (2 * rest == den && tie == .even && low % 2 == 0)

/-- The natural number nearest to `num / den`. -/
def roundQuotient (tie : Tie) (num den : Nat) : Nat :=
  if tie.prefersLower (num / den) (num % den) den then num / den else num / den + 1

end SolidScene
