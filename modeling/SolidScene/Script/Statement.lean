import SolidScene.Decimal.Basic

/-!
# The language of scripts

A script is a list of statements.  A statement is empty, a block, or a call: a name with
arguments, which ends there or goes on with a block or with another statement.  What a
statement means is settled by its calls alone: `Statement.nodes` drops empty statements,
opens blocks, and makes what a call goes on with the children of the call.
-/

namespace SolidScene.Script

/-- The value of an argument. -/
inductive Value
  /-- A numeral, with a minus before it or without. -/
  | number (negative : Bool) (magnitude : Decimal)
  /-- A bare name. -/
  | word (name : String)
  /-- Values in brackets. -/
  | vector (items : List Value)

/-- An argument of a call, with a name or without. -/
structure Argument where
  name : Option String
  value : Value

/-- A call and the calls below it. -/
inductive Node
  | call (name : String) (arguments : List Argument) (children : List Node)

/-- A statement of a script. -/
inductive Statement
  /-- A semicolon by itself. -/
  | empty
  /-- Statements in braces. -/
  | block (body : List Statement)
  /-- A call that ends in a semicolon. -/
  | call (name : String) (arguments : List Argument)
  /-- A call before a block. -/
  | callBlock (name : String) (arguments : List Argument) (body : List Statement)
  /-- A call before another statement. -/
  | callNext (name : String) (arguments : List Argument) (next : Statement)

namespace Value

/-- A length in hundredths as a value. -/
def ofHundredths (n : Int) : Value := .number (n < 0) (.ofHundredths n.natAbs)

/-- A natural number as a value. -/
def ofNat (n : Nat) : Value := .number false ⟨n, 0⟩

/-- The double that a number names. -/
def toFloat? : Value → Option Float
  | .number negative magnitude =>
    some (if negative then -magnitude.toFloat else magnitude.toFloat)
  | .word _ => none
  | .vector _ => none

end Value

/-! ### The calls of a statement -/

mutual

/-- The calls that a statement makes, each with the calls below it. -/
def Statement.nodes : Statement → List Node
  | .empty => []
  | .block body => nodesOf body
  | .call name arguments => [.call name arguments []]
  | .callBlock name arguments body => [.call name arguments (nodesOf body)]
  | .callNext name arguments next => [.call name arguments next.nodes]

/-- The calls that some statements make, in order. -/
def nodesOf : List Statement → List Node
  | [] => []
  | s :: rest => s.nodes ++ nodesOf rest

end

end SolidScene.Script
