import SolidScene.Decimal.Shortest

/-!
# How a double is written

A `Numeral` is a number as it stands in a text: the digits before the point, those after it,
and the exponent, if there is one.  A `NumberFormat` holds the decisions that a kind of text
makes about numbers: which powers of ten are written in place and which with an exponent,
whether a whole number keeps a digit after its point, and where a tie between two shortest
decimals goes.
-/

namespace SolidScene

/-- An unsigned number as it stands in a text. -/
structure Numeral where
  /-- The digits before the point. -/
  whole : List Char
  /-- The digits after the point; without any there is no point. -/
  fraction : List Char
  /-- The exponent, if there is one. -/
  exponent : Option Int
  deriving DecidableEq, Repr

namespace Numeral

/-- An exponent with its sign, which is always written. -/
def exponentText (e : Int) : List Char :=
  'e' :: (if e < 0 then '-' else '+') :: digitsOfNat e.natAbs

/-- A numeral as text. -/
def text (n : Numeral) : List Char :=
  n.whole ++ (if n.fraction.isEmpty then [] else '.' :: n.fraction) ++
    (n.exponent.map exponentText).getD []

end Numeral

/-- What a kind of text decides about the writing of doubles. -/
structure NumberFormat where
  /-- The leading place of a number that is written without an exponent lies in this range,
  first end included, second not; without a range every number is. -/
  inPlace : Option (Int × Int)
  /-- A whole number that is written without an exponent keeps a zero after its point. -/
  keepsPoint : Bool
  /-- Which of two equally near shortest decimals is written. -/
  tie : Tie
  deriving DecidableEq, Repr

namespace NumberFormat

/-- Every number in place and whole numbers without a point, as in meshes and in messages. -/
def plain : NumberFormat := ⟨none, false, .up⟩

/-- The digits of a positive number without the zeros at their end, and the place of the
leading digit. -/
def digitsAndPlace (d : Decimal) : List Char × Int :=
  let digits := digitsOfNat d.digits
  ((digits.reverse.dropWhile (· == '0')).reverse, digits.length - 1 + d.exponent)

/-- The digits after the point of a whole number. -/
def wholeFraction (format : NumberFormat) : List Char := if format.keepsPoint then ['0'] else []

/-- A number in place, its leading digit standing at `place`. -/
def writeInPlace (format : NumberFormat) (digits : List Char) (place : Int) : Numeral :=
  if place < 0 then ⟨['0'], zeros (-place - 1).toNat ++ digits, none⟩
  else
    let size := place.toNat + 1
    if size < digits.length then ⟨digits.take size, digits.drop size, none⟩
    else ⟨digits ++ zeros (size - digits.length), format.wholeFraction, none⟩

/-- A number with one digit before the point and an exponent. -/
def writeScaled (digits : List Char) (place : Int) : Numeral :=
  ⟨digits.take 1, digits.drop 1, some place⟩

/-- A magnitude in a format. -/
def writeMagnitude (format : NumberFormat) (d : Decimal) : Numeral :=
  if d.digits = 0 then ⟨['0'], format.wholeFraction, none⟩
  else
    let (digits, place) := digitsAndPlace d
    match format.inPlace with
    | none => format.writeInPlace digits place
    | some (first, last) =>
      if first ≤ place ∧ place < last then format.writeInPlace digits place
      else writeScaled digits place

/-- The magnitude of a finite double in a format. -/
def write? (format : NumberFormat) (x : Float) : Option Numeral :=
  (Decimal.shortest? format.tie x).map format.writeMagnitude

end NumberFormat

/-- Whether a double carries a minus sign. -/
def isNegative (x : Float) : Bool := x.toBits ≥ 0x8000000000000000

/-- The text of a magnitude, after a minus where the double carries one. -/
def withSign (x : Float) (magnitude : List Char) : String :=
  String.ofList (if isNegative x then '-' :: magnitude else magnitude)

/-- A double as meshes and messages show it. -/
def plainText (x : Float) : String :=
  match NumberFormat.plain.write? x with
  | some n => withSign x n.text
  | none => if x.isNaN then "NaN" else withSign x ['i', 'n', 'f']

example : plainText 1.0 = "1" := by decide +kernel
example : plainText (-0.0) = "-0" := by decide +kernel
example : plainText 1.5e-7 = "0.00000015" := by decide +kernel
example : plainText 1e21 = "1000000000000000000000" := by decide +kernel
example : plainText (-1.0 / 0.0) = "-inf" := by decide +kernel

end SolidScene
