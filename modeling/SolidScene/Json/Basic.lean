import SolidScene.Decimal.Layout

/-!
# JSON values

A `Json` is a document as it is written: numbers keep their digits, objects their members in
order, repeated names included.  How a number is turned into a double is said here as well,
since it is not the nearest one: the digits that fit into a 64-bit word are taken as a whole
number, which is then multiplied or divided by a power of ten.
-/

namespace SolidScene

/-- A JSON value. -/
inductive Json
  | null
  | bool (value : Bool)
  | number (negative : Bool) (magnitude : Numeral)
  /-- A text; none where its escapes spell half of a surrogate pair, so that it is no text. -/
  | string (content : Option String)
  | array (items : List Json)
  | object (members : List (Option String × Json))

namespace Json

/-! ### Numbers that are written -/

/-- Numbers from `0.00001` up to sixteen digits are written in place, and whole numbers keep a
zero after the point. -/
def format : NumberFormat := ⟨some (-5, 16), true, .even⟩

/-- A double as a value; null unless it is finite. -/
def ofFloat (x : Float) : Json :=
  match format.write? x with
  | some n => .number (isNegative x) n
  | none => .null

/-- A natural number as a value. -/
def ofNat (n : Nat) : Json := .number false ⟨digitsOfNat n, [], none⟩

/-- A text as a value. -/
def ofString (s : String) : Json := .string (some s)

/-- Members with names that are texts. -/
def ofFields (fields : List (String × Json)) : Json :=
  .object (fields.map fun (name, value) => (some name, value))

/-! ### Numbers that are read -/

/-- What a significand may not reach. -/
def significandLimit : Nat := UInt64.size

/-- Takes digits into a significand for as long as it stays below its limit; gives the digits that
are left. -/
def takeDigits (significand : Nat) : List Char → Nat × List Char
  | [] => (significand, [])
  | c :: cs =>
    let next := 10 * significand + digitValue c
    if next < significandLimit then takeDigits next cs else (significand, c :: cs)

/-- The greatest power of ten that is a double. -/
def greatestPower : Nat := 308

/-- A power of ten. -/
def powerOfTen (k : Nat) : Float := Decimal.toFloat ⟨1, k⟩

/-- A double times a power of ten, unless it gets too great. -/
def scaleUp? (f : Float) (k : Nat) : Option Float :=
  if k ≤ greatestPower then
    let scaled := f * powerOfTen k
    if scaled.isInf then none else some scaled
  else if f == 0.0 then some f
  else none

/-- A double divided by a power of ten, in steps that each are a double.  Three steps bring any
significand down to zero. -/
def scaleDown (f : Float) (k : Nat) : Float :=
  go 3 f k
where
  /-- At most so many steps. -/
  go : Nat → Float → Nat → Float
    | 0, f, _ => f
    | steps + 1, f, k =>
      if k ≤ greatestPower then f / powerOfTen k
      else if f == 0.0 then f
      else go steps (f / powerOfTen greatestPower) (k - greatestPower)

/-- What an exponent may not exceed on either side. -/
def exponentLimit : Nat := Nat.pow 2 31 - 1

/-- The double that a numeral stands for; none where it is too great. -/
def numeralValue? (n : Numeral) : Option Float :=
  let (significand, wholeLeft) := takeDigits 0 n.whole
  let (significand, fractionLeft) := takeDigits significand n.fraction
  let places : Int := wholeLeft.length - (n.fraction.length - fractionLeft.length : Nat)
  let exponent := n.exponent.getD 0
  if exponent.natAbs > exponentLimit then
    if significand ≠ 0 ∧ exponent > 0 then none else some 0.0
  else
    let total := places + exponent
    let f := Float.ofNat significand
    if total ≥ 0 then scaleUp? f total.natAbs else some (scaleDown f total.natAbs)

/-- The double that a value stands for. -/
def toFloat? : Json → Option Float
  | .number negative n => (numeralValue? n).map fun f => if negative then -f else f
  | _ => none

/-- The word that a value stands for: a whole number without sign, point and exponent. -/
def toWord? : Json → Option UInt32
  | .number false ⟨whole, [], none⟩ =>
    let n := natOfDigits whole
    if n < UInt32.size then some n.toUInt32 else none
  | _ => none

/-- The text that a value is. -/
def toText? : Json → Option String
  | .string content => content
  | _ => none

end Json

end SolidScene
