import SolidScene.Decimal.Exact

/-!
# Two decimal places

A length in a script is a whole number of hundredths: the one nearest to the exact value of
the double, a half going to the even neighbour.  A double that is infinite or not a number
counts as zero, and zero has no sign.
-/

namespace SolidScene

/-- The number of hundredths nearest to a double; zero unless the double is finite. -/
def hundredths (x : Float) : Int :=
  match ExactValue.ofFloat? x with
  | none => 0
  | some v =>
    let n : Int := roundQuotient .even (100 * v.numerator) v.denominator
    if v.negative then -n else n

example : (Decimal.ofHundredths 5).text = "0.05".toList := by decide +kernel
example : hundredths 1500.0 = 150000 := by decide +kernel
example : hundredths 0.125 = 12 := by decide +kernel
example : hundredths (-0.2) = -20 := by decide +kernel
example : hundredths (-0.001) = 0 := by decide +kernel
example : hundredths (1.0 / 0.0) = 0 := by decide +kernel

end SolidScene
