import SolidScene.Json.Basic

/-!
# Writing JSON

Every item of an array and every member of an object stands on a line of its own, two blanks
further in than the brackets around it; an empty array or object is written as its brackets.  In
texts only quotes, backslashes and control characters are escaped.
-/

namespace SolidScene

namespace Json

/-! ### Texts -/

/-- A control character by its number. -/
def escapeControl (c : Char) : List Char :=
  ['\\', 'u', '0', '0', Nat.digitChar (c.toNat / 16), Nat.digitChar (c.toNat % 16)]

/-- A character as it stands in a text. -/
def escapeChar (c : Char) : List Char :=
  if c = '"' ∨ c = '\\' then ['\\', c]
  else if c = '\x08' then ['\\', 'b']
  else if c = '\x0c' then ['\\', 'f']
  else if c = '\n' then ['\\', 'n']
  else if c = '\r' then ['\\', 'r']
  else if c = '\t' then ['\\', 't']
  else if c < ' ' then escapeControl c
  else [c]

/-- A text in quotes. -/
def quote (s : String) : List Char := '"' :: s.toList.flatMap escapeChar ++ ['"']

/-- A text that is none is written as an empty one. -/
def quoteContent (content : Option String) : List Char := quote (content.getD "")

/-! ### Values -/

/-- A line break and the blanks of the line after it. -/
def newLine (level : Nat) : List Char := '\n' :: List.replicate (2 * level) ' '

mutual

/-- A value whose brackets stand `level` levels in. -/
def render (level : Nat) : Json → List Char
  | .null => ['n', 'u', 'l', 'l']
  | .bool true => ['t', 'r', 'u', 'e']
  | .bool false => ['f', 'a', 'l', 's', 'e']
  | .number negative n => (if negative then ['-'] else []) ++ n.text
  | .string content => quoteContent content
  | .array [] => ['[', ']']
  | .array (item :: items) =>
    '[' :: newLine (level + 1) ++ item.render (level + 1) ++ renderItems (level + 1) items ++
      newLine level ++ [']']
  | .object [] => ['{', '}']
  | .object ((name, value) :: members) =>
    '{' :: newLine (level + 1) ++ quoteContent name ++ ':' :: ' ' :: value.render (level + 1) ++
      renderMembers (level + 1) members ++ newLine level ++ ['}']

/-- Further items, each after a comma. -/
def renderItems (level : Nat) : List Json → List Char
  | [] => []
  | item :: items => ',' :: newLine level ++ item.render level ++ renderItems level items

/-- Further members, each after a comma. -/
def renderMembers (level : Nat) : List (Option String × Json) → List Char
  | [] => []
  | (name, value) :: members =>
    ',' :: newLine level ++ quoteContent name ++ ':' :: ' ' :: value.render level ++
      renderMembers level members

end

/-- A document. -/
def text (value : Json) : String := String.ofList (value.render 0)

end Json

end SolidScene
