import SolidScene.Script.Statement

/-!
# Statements as text

Arguments are separated by a comma and a blank, a name is joined to its value by `=`, and the
statements of a block stand on lines of their own, four blanks further in.
-/

namespace SolidScene.Script

/-- Texts one after another with a separator between them. -/
def joinWith (separator : List Char) : List (List Char) → List Char
  | [] => []
  | [text] => text
  | text :: rest => text ++ separator ++ joinWith separator rest

/-- What stands between two items of a list. -/
def comma : List Char := [',', ' ']

/-- The blanks in front of a line, four to a level. -/
def indentation (level : Nat) : List Char := List.replicate (4 * level) ' '

mutual

/-- A value as text. -/
def Value.render : Value → List Char
  | .number negative magnitude => (if negative then ['-'] else []) ++ magnitude.text
  | .word name => name.toList
  | .vector items => '[' :: joinWith comma (renderItems items) ++ [']']

/-- The items of a vector as texts. -/
def renderItems : List Value → List (List Char)
  | [] => []
  | item :: rest => item.render :: renderItems rest

end

/-- An argument as text. -/
def Argument.render (a : Argument) : List Char :=
  match a.name with
  | some name => name.toList ++ '=' :: a.value.render
  | none => a.value.render

/-- A name with its arguments as text. -/
def renderCall (name : String) (arguments : List Argument) : List Char :=
  name.toList ++ '(' :: joinWith comma (arguments.map Argument.render) ++ [')']

mutual

/-- A statement as text, the first line without indentation. -/
def Statement.render (level : Nat) : Statement → List Char
  | .empty => [';']
  | .block body => '{' :: renderBody level body
  | .call name arguments => renderCall name arguments ++ [';']
  | .callBlock name arguments body =>
    renderCall name arguments ++ ' ' :: '{' :: renderBody level body
  | .callNext name arguments next => renderCall name arguments ++ ' ' :: next.render level

/-- The statements of a block on lines of their own, and the closing brace. -/
def renderBody (level : Nat) (body : List Statement) : List Char :=
  '\n' :: renderLines (level + 1) body ++ indentation level ++ ['}']

/-- Statements as indented lines. -/
def renderLines (level : Nat) : List Statement → List Char
  | [] => []
  | s :: rest => indentation level ++ s.render level ++ '\n' :: renderLines level rest

end

/-- Statements one to a line, without a line break at the end. -/
def render (statements : List Statement) : List Char :=
  joinWith ['\n'] (statements.map (Statement.render 0))

end SolidScene.Script
