import SolidScene.Json.Basic

/-!
# Reading JSON

`Json.read?` reads a text that is one value from end to end, as the grammar of the format has
it: blanks are the space, the tab and the two line breaks, a number has no superfluous zero in
front and digits on both sides of its point, and a control character in a text is written as an
escape.  The depth of a value is bounded by nothing but the length of the text, which is the
fuel of the recursion.
-/

namespace SolidScene

namespace Json

/-- White space between the parts of a document. -/
def isSpace (c : Char) : Bool := c == ' ' || c == '\n' || c == '\t' || c == '\r'

/-- The text after its leading white space. -/
def skipSpace (cs : List Char) : List Char := cs.dropWhile isSpace

/-! ### Numbers -/

/-- Digits, at least one. -/
def readDigits? (cs : List Char) : Option (List Char × List Char) :=
  let digits := cs.takeWhile Char.isDigit
  if digits.isEmpty then none else some (digits, cs.dropWhile Char.isDigit)

/-- The digits before the point: a zero by itself, or digits of which the first is none. -/
def readWhole? (cs : List Char) : Option (List Char × List Char) :=
  match readDigits? cs with
  | some ('0' :: _ :: _, _) => none
  | digits => digits

/-- The digits after a point, if there is one. -/
def readFraction? : List Char → Option (List Char × List Char)
  | '.' :: cs => readDigits? cs
  | cs => some ([], cs)

/-- The digits of an exponent under a sign. -/
def readPower? (negative : Bool) (cs : List Char) : Option (Option Int × List Char) :=
  (readDigits? cs).map fun (digits, cs) =>
    (some (if negative then -(natOfDigits digits : Int) else natOfDigits digits), cs)

/-- The exponent after its marker. -/
def readSignedPower? : List Char → Option (Option Int × List Char)
  | '+' :: cs => readPower? false cs
  | '-' :: cs => readPower? true cs
  | cs => readPower? false cs

/-- The exponent, if there is one. -/
def readExponent? : List Char → Option (Option Int × List Char)
  | 'e' :: cs => readSignedPower? cs
  | 'E' :: cs => readSignedPower? cs
  | cs => some (none, cs)

/-- A number without its sign. -/
def readNumeral? (cs : List Char) : Option (Numeral × List Char) := do
  let (whole, cs) ← readWhole? cs
  let (fraction, cs) ← readFraction? cs
  let (exponent, cs) ← readExponent? cs
  return (⟨whole, fraction, exponent⟩, cs)

/-! ### Texts -/

/-- The value of a hexadecimal digit. -/
def hexValue? (c : Char) : Option Nat :=
  if c.isDigit then some (digitValue c)
  else if 'a' ≤ c ∧ c ≤ 'f' then some (c.toNat - 'a'.toNat + 10)
  else if 'A' ≤ c ∧ c ≤ 'F' then some (c.toNat - 'A'.toNat + 10)
  else none

/-- The number that four hexadecimal digits spell. -/
def hexUnit? (a b c d : Char) : Option Nat := do
  let high := 16 * (← hexValue? a) + (← hexValue? b)
  return 256 * high + 16 * (← hexValue? c) + (← hexValue? d)

/-- The character that an escape of one letter stands for. -/
def escapedChar? : Char → Option Char
  | '"' => some '"'
  | '\\' => some '\\'
  | '/' => some '/'
  | 'b' => some '\x08'
  | 'f' => some '\x0c'
  | 'n' => some '\n'
  | 'r' => some '\r'
  | 't' => some '\t'
  | _ => none

/-- The code units of a text after its opening quote, after the units `found`, the last of which
comes first.  A character stands for itself and an escape for one unit. -/
def readUnits? (found : List Nat) : List Char → Option (List Nat × List Char)
  | [] => none
  | '"' :: cs => some (found.reverse, cs)
  | '\\' :: 'u' :: a :: b :: c :: d :: cs =>
    match hexUnit? a b c d with
    | some unit => readUnits? (unit :: found) cs
    | none => none
  | '\\' :: c :: cs =>
    match escapedChar? c with
    | some e => readUnits? (e.toNat :: found) cs
    | none => none
  | c :: cs => if c < ' ' then none else readUnits? (c.toNat :: found) cs

/-- The first half of a surrogate pair. -/
def isHighHalf (unit : Nat) : Bool := 0xD800 ≤ unit && unit < 0xDC00

/-- The second half of a surrogate pair. -/
def isLowHalf (unit : Nat) : Bool := 0xDC00 ≤ unit && unit < 0xE000

/-- The character that the two halves of a surrogate pair stand for. -/
def joinHalves (high low : Nat) : Char :=
  Char.ofNat (0x10000 + 0x400 * (high - 0xD800) + (low - 0xDC00))

/-- The characters that code units spell; none where half of a pair stands alone. -/
def decodeUnits? : List Nat → Option (List Char)
  | [] => some []
  | [unit] => if isHighHalf unit || isLowHalf unit then none else some [Char.ofNat unit]
  | unit :: next :: rest =>
    if isHighHalf unit && isLowHalf next then
      (decodeUnits? rest).map (joinHalves unit next :: ·)
    else if isHighHalf unit || isLowHalf unit then none
    else (decodeUnits? (next :: rest)).map (Char.ofNat unit :: ·)

/-- A text after its opening quote. -/
def readText? (cs : List Char) : Option (Option String × List Char) :=
  (readUnits? [] cs).map fun (units, cs) => ((decodeUnits? units).map String.ofList, cs)

/-! ### Values -/

/-- The text after a fixed start. -/
def afterWord? : (start text : List Char) → Option (List Char)
  | [], text => some text
  | _ :: _, [] => none
  | c :: start, d :: text => if c = d then afterWord? start text else none

/-- The name of a member and the colon after it. -/
def readName? (cs : List Char) : Option (Option String × List Char) :=
  match skipSpace cs with
  | '"' :: cs =>
    match readText? cs with
    | some (name, cs) =>
      match skipSpace cs with
      | ':' :: cs => some (name, cs)
      | _ => none
    | none => none
  | _ => none

mutual

/-- A value at the start of a text. -/
def readValue? : (fuel : Nat) → List Char → Option (Json × List Char)
  | 0, _ => none
  | fuel + 1, cs =>
    match skipSpace cs with
    | 'n' :: cs => (afterWord? ['u', 'l', 'l'] cs).map (null, ·)
    | 't' :: cs => (afterWord? ['r', 'u', 'e'] cs).map (bool true, ·)
    | 'f' :: cs => (afterWord? ['a', 'l', 's', 'e'] cs).map (bool false, ·)
    | '"' :: cs => (readText? cs).map fun (content, cs) => (string content, cs)
    | '-' :: cs => (readNumeral? cs).map fun (n, cs) => (number true n, cs)
    | '[' :: cs =>
      match skipSpace cs with
      | ']' :: cs => some (array [], cs)
      | cs => readItems? fuel [] cs
    | '{' :: cs =>
      match skipSpace cs with
      | '}' :: cs => some (object [], cs)
      | cs => readMembers? fuel [] cs
    | cs => (readNumeral? cs).map fun (n, cs) => (number false n, cs)

/-- The items of an array up to its closing bracket, after the items `items`, the last of which
comes first. -/
def readItems? : (fuel : Nat) → (items : List Json) → List Char → Option (Json × List Char)
  | 0, _, _ => none
  | fuel + 1, items, cs =>
    match readValue? fuel cs with
    | none => none
    | some (item, cs) =>
      match skipSpace cs with
      | ',' :: cs => readItems? fuel (item :: items) cs
      | ']' :: cs => some (array (item :: items).reverse, cs)
      | _ => none

/-- The members of an object up to its closing brace, after the members `members`, the last of
which comes first. -/
def readMembers? : (fuel : Nat) → (members : List (Option String × Json)) → List Char →
    Option (Json × List Char)
  | 0, _, _ => none
  | fuel + 1, members, cs =>
    match readName? cs with
    | none => none
    | some (name, cs) =>
      match readValue? fuel cs with
      | none => none
      | some (value, cs) =>
        match skipSpace cs with
        | ',' :: cs => readMembers? fuel ((name, value) :: members) cs
        | '}' :: cs => some (object ((name, value) :: members).reverse, cs)
        | _ => none

end

/-- The value that a whole text is.  Two steps of the recursion take at least one character. -/
def read? (text : String) : Option Json :=
  let cs := text.toList
  match readValue? (2 * cs.length + 2) cs with
  | some (value, cs) => if (skipSpace cs).isEmpty then some value else none
  | none => none

end Json

end SolidScene
