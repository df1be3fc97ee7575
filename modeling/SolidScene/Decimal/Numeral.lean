import SolidScene.Decimal.Basic

/-!
# Numerals

An unsigned numeral is a row of digits with at most one point among them, and then, if there
is one, an exponent: a marker `e` or `E`, a sign if there is one, and digits, of which those that
come after a size of `powerLimit` count for nothing.
`Decimal.scan` takes the longest start of a text that has this form; where the form is there
but no number is said (no digit around the point, or none after the marker) it still takes
the characters and gives no value.  `Decimal.read?` reads a text that is a numeral from end
to end, and `readFloat?` adds the sign and the names of the numbers that no digits spell.
-/

namespace SolidScene

namespace Decimal

/-- The digits after a point, if a point comes first. -/
def scanFraction : List Char → List Char × List Char
  | '.' :: cs => (cs.takeWhile Char.isDigit, cs.dropWhile Char.isDigit)
  | cs => ([], cs)

/-- The size from which an exponent takes in no further digit. -/
def powerLimit : Nat := Nat.pow 2 16

/-- The size that the digits of an exponent spell, in which each digit counts as long as those in
front of it spell less than the limit. -/
def powerOfDigits (digits : List Char) : Nat :=
  digits.foldl (fun n c => if n < powerLimit then 10 * n + digitValue c else n) 0

example : powerOfDigits ['6', '5', '5', '3', '5', '9'] = 655359 := by decide

example : powerOfDigits ['0', '6', '5', '5', '3', '6', '9'] = 65536 := by decide

/-- The digits of an exponent under a sign; no value without digits. -/
def scanPower (negative : Bool) (cs : List Char) : Option Int × List Char :=
  let digits := cs.takeWhile Char.isDigit
  let power : Int := powerOfDigits digits
  (if digits.isEmpty then none else some (if negative then -power else power),
    cs.dropWhile Char.isDigit)

/-- The exponent after its marker. -/
def scanSignedPower : List Char → Option Int × List Char
  | '+' :: cs => scanPower false cs
  | '-' :: cs => scanPower true cs
  | cs => scanPower false cs

/-- The exponent, which is zero where there is no marker. -/
def scanExponent : List Char → Option Int × List Char
  | 'e' :: cs => scanSignedPower cs
  | 'E' :: cs => scanSignedPower cs
  | cs => (some 0, cs)

/-- The longest numeral at the start of a text, and the text after it. -/
def scan (cs : List Char) : Option Decimal × List Char :=
  let whole := cs.takeWhile Char.isDigit
  let (fraction, cs) := scanFraction (cs.dropWhile Char.isDigit)
  let (power, cs) := scanExponent cs
  (if whole.isEmpty && fraction.isEmpty then none
    else power.map fun e => ⟨natOfDigits (whole ++ fraction), e - fraction.length⟩, cs)

/-- The decimal that a whole text spells. -/
def read? (cs : List Char) : Option Decimal :=
  match scan cs with
  | (some d, []) => some d
  | _ => none

/-! ### No part of a scan hands back more than it was given -/

theorem length_dropWhile_le (p : Char → Bool) (cs : List Char) :
    (cs.dropWhile p).length ≤ cs.length := (List.dropWhile_sublist p).length_le

theorem length_scanFraction_le (cs : List Char) : (scanFraction cs).2.length ≤ cs.length := by
  unfold scanFraction
  split
  · exact Nat.le_succ_of_le (length_dropWhile_le _ _)
  · exact Nat.le_refl _

theorem length_scanSignedPower_le (cs : List Char) :
    (scanSignedPower cs).2.length ≤ cs.length := by
  unfold scanSignedPower scanPower
  split
  · exact Nat.le_succ_of_le (length_dropWhile_le _ _)
  · exact Nat.le_succ_of_le (length_dropWhile_le _ _)
  · exact length_dropWhile_le _ _

theorem length_scanExponent_le (cs : List Char) : (scanExponent cs).2.length ≤ cs.length := by
  unfold scanExponent
  split
  · exact Nat.le_succ_of_le (length_scanSignedPower_le _)
  · exact Nat.le_succ_of_le (length_scanSignedPower_le _)
  · exact Nat.le_refl _

end Decimal

/-! ### Signed numbers -/

/-- An unsigned number: a numeral, or the name of infinity or of "not a number" in any case. -/
def readMagnitude? (cs : List Char) : Option Float :=
  match Decimal.read? cs with
  | some d => some d.toFloat
  | none =>
    let name := String.ofList (cs.map Char.toLower)
    if name = "inf" ∨ name = "infinity" then some (1.0 / 0.0)
    else if name = "nan" then some (0.0 / 0.0)
    else none

/-- The double that a whole text names: an optional sign and an unsigned number. -/
def readFloat? : List Char → Option Float
  | '-' :: cs => (readMagnitude? cs).map (- ·)
  | '+' :: cs => readMagnitude? cs
  | cs => readMagnitude? cs

end SolidScene
