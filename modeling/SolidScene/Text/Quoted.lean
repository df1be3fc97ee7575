import SolidScene.Text.Unprintable

/-!
# Quoted text

Messages show a text between double quotes.  A double quote and a backslash are written after
a backslash, the common controls by a letter, any other character that does not show by its
number in braces, and all else as it stands.
-/

namespace SolidScene.Text

/-- A character that does not show, by its number in lower-case hexadecimal. -/
def escapeByNumber (c : Char) : List Char :=
  ['\\', 'u', '{'] ++ Nat.toDigits 16 c.toNat ++ ['}']

/-- One character as it stands between the quotes. -/
def escapeChar (c : Char) : List Char :=
  if c = '\x00' then ['\\', '0']
  else if c = '\t' then ['\\', 't']
  else if c = '\n' then ['\\', 'n']
  else if c = '\r' then ['\\', 'r']
  else if c = '"' ∨ c = '\\' then ['\\', c]
  else if isPrintable c then [c]
  else escapeByNumber c

/-- A text between double quotes. -/
def quote (cs : List Char) : List Char := '"' :: cs.flatMap escapeChar ++ ['"']

/-- A text between double quotes. -/
def quoted (s : String) : String := String.ofList (quote s.toList)

example : quoted "a \"b\"\n" = "\"a \\\"b\\\"\\n\"" := by decide +kernel

example : quoted "\x7f" = "\"\\u\x7b7f\x7d\"" := by decide +kernel

end SolidScene.Text
