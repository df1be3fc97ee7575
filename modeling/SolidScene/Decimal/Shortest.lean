import SolidScene.Decimal.Exact

/-!
# The fewest digits that read back

The numbers that are nearer to a given double than to any other form an interval around it,
whose ends belong to it where its significand is even.  `Decimal.shortest?` gives a decimal of
this interval with as few digits as any has and, among those, nearest to the double; the tie
rule settles between two that are equally near.  For one, two, … seventeen digits it looks at
the two neighbours of the exact value on the grid of decimals with so many digits, and the
first grid on which one of them lies in the interval settles the matter.
-/

namespace SolidScene

namespace ExactValue

/-- The exponent of the smallest doubles. -/
def leastExponent : Int := -1074

/-- The significand at which the doubles below lie closer together than those above. -/
def leastFull : Nat := Nat.pow 2 52

/-- Whether a number that lies `distance` from a double rounds to it, the next double on that side
being `gap` away. -/
def attracts (v : ExactValue) (distance gap : Nat) : Bool :=
  2 * distance < gap || (2 * distance == gap && v.mantissa % 2 == 0)

/-- Whether the next double below is half as far away as the next one above. -/
def closerBelow (v : ExactValue) : Bool :=
  v.mantissa == leastFull && v.exponent != leastExponent

end ExactValue

namespace Decimal

/-- The place of the leading digit of `num / den`: the `k` with
`10 ^ k ≤ num / den < 10 ^ (k + 1)`. -/
def leadingPlace (num den : Nat) : Int :=
  if den ≤ num then (digitCount (num / den) : Int) - 1
  else -(digitCount ((den - 1) / num) : Int)

/-- The decimal with `places` digits after the point that neighbours the magnitude of a double,
rounds to it, and is nearest to it.  Distances are counted in parts of the grid, of which there
are `den` from one decimal to the next. -/
def neighbour? (tie : Tie) (v : ExactValue) (places : Int) : Option Decimal :=
  let scale := Nat.pow 10 places.toNat
  let num := v.numerator * scale
  let den := v.denominator * Nat.pow 10 (-places).toNat
  let gap := Nat.pow 2 v.exponent.toNat * scale
  let low := num / den
  let rest := num % den
  let lowReads := v.attracts (if v.closerBelow then 2 * rest else rest) gap
  let highReads := v.attracts (den - rest) gap
  if lowReads && (!highReads || tie.prefersLower low rest den) then some ⟨low, -places⟩
  else if highReads then some ⟨low + 1, -places⟩
  else none

/-- No double needs more digits than this to be told from the others. -/
def mostDigits : Nat := 17

/-- The fewest digits that read back as the magnitude of a finite double. -/
def shortest? (tie : Tie) (x : Float) : Option Decimal :=
  (ExactValue.ofFloat? x).map fun v =>
    if v.mantissa = 0 then ⟨0, 0⟩
    else
      let place := leadingPlace v.numerator v.denominator
      ((List.range mostDigits).findSome? fun (n : Nat) => neighbour? tie v (n - place)).getD
        v.toDecimal

example : shortest? .even 0.1 = some ⟨1, -1⟩ := by decide +kernel
example : shortest? .even 5e-324 = some ⟨5, -324⟩ := by decide +kernel
example : shortest? .up 100.0 = some ⟨1, 2⟩ := by decide +kernel
example : shortest? .even 1125899906842624.25 = some ⟨11258999068426242, -1⟩ := by decide +kernel
example : shortest? .up 1125899906842624.25 = some ⟨11258999068426243, -1⟩ := by decide +kernel

end Decimal

end SolidScene
