import SolidScene.Script.Statement
import SolidScene.Script.Token

/-!
# Reading statements

`parse` reads the calls of a script.  A statement that is not well formed is skipped up to the
semicolon or the closing brace that ends it, and reading goes on after it, so a fault stays
with the statement it is in.  Blocks, children and vectors may nest `deepest` levels; what
nests deeper is not well formed.

A `Reader` takes a value off the front of a token list, and carries the proof that it takes at
least one token whenever it succeeds: lists and blocks of any length end because of it.
-/

namespace SolidScene.Script

/-- What reading from the front of a token list comes to: a value and the tokens after it, or a
failure and the tokens at which it was noticed. -/
inductive Outcome (α : Type)
  | found (value : α) (rest : List Token)
  | failed (rest : List Token)

/-- A way to take a value off the front of a token list. -/
structure Reader (α : Type) where
  run : List Token → Outcome α
  shorter : ∀ {ts value rest}, run ts = .found value rest → rest.length < ts.length

/-! ### Lists of values -/

/-- Items separated by commas up to the token `close`, after the items `items`, the last of which
comes first. -/
def readItemsFrom {α : Type} (item : Reader α) (close : Token) (items : List α)
    (ts : List Token) : Outcome (List α) :=
  match _h : item.run ts with
  | .failed rest => .failed rest
  | .found value (t :: rest) =>
    if t = .comma then readItemsFrom item close (value :: items) rest
    else if t = close then .found (value :: items).reverse rest
    else .failed (t :: rest)
  | .found _ [] => .failed []
termination_by ts.length
decreasing_by
  have := item.shorter _h
  simp only [List.length_cons] at this
  omega

/-- Items separated by commas up to the token `close`; there may be none. -/
def readItems {α : Type} (item : Reader α) (close : Token) (ts : List Token) :
    Outcome (List α) :=
  match ts with
  | t :: rest => if t = close then .found [] rest else readItemsFrom item close [] (t :: rest)
  | [] => readItemsFrom item close [] []

theorem shorter_readItemsFrom {α : Type} {item : Reader α} {close : Token} {items : List α}
    {ts : List Token} {values : List α} {rest : List Token}
    (h : readItemsFrom item close items ts = .found values rest) : rest.length < ts.length := by
  fun_induction readItemsFrom item close items ts with
  | case1 => contradiction
  | case2 items ts value tail hitem ih =>
    exact Nat.lt_trans (ih h) (Nat.lt_trans (Nat.lt_succ_self _) (item.shorter hitem))
  | case3 items ts value rest hitem =>
    cases h
    exact Nat.lt_trans (Nat.lt_succ_self _) (item.shorter hitem)
  | case4 => contradiction
  | case5 => contradiction

theorem shorter_readItems {α : Type} {item : Reader α} {close : Token}
    {ts : List Token} {values : List α} {rest : List Token}
    (h : readItems item close ts = .found values rest) : rest.length < ts.length := by
  unfold readItems at h
  split at h
  · split at h
    · cases h; exact Nat.lt_succ_self _
    · exact shorter_readItemsFrom h
  · exact shorter_readItemsFrom h

/-! ### Values and arguments -/

/-- Reads a value; `inner` reads the items of a vector and is missing at the deepest level. -/
def runValue (inner : Option (Reader Value)) : List Token → Outcome Value
  | .number x :: ts => .found (.number false x) ts
  | .minus :: .number x :: ts => .found (.number true x) ts
  | .minus :: ts => .failed ts
  | .word name :: ts => .found (.word name) ts
  | .openBracket :: ts =>
    match inner with
    | none => .failed ts
    | some inner =>
      match readItems inner .closeBracket ts with
      | .found items rest => .found (.vector items) rest
      | .failed rest => .failed rest
  | ts => .failed ts

theorem shorter_runValue {inner : Option (Reader Value)} {ts : List Token} {value : Value}
    {rest : List Token} (h : runValue inner ts = .found value rest) :
    rest.length < ts.length := by
  unfold runValue at h
  split at h
  · cases h; simp
  · cases h; simp only [List.length_cons]; omega
  · contradiction
  · cases h; simp
  · split at h
    · contradiction
    · split at h
      · next hitems => cases h; exact Nat.lt_succ_of_lt (shorter_readItems hitems)
      · contradiction
  · contradiction

/-- Reads a value in which vectors may nest `room` levels. -/
def value : (room : Nat) → Reader Value
  | 0 => ⟨runValue none, shorter_runValue⟩
  | room + 1 => ⟨runValue (some (value room)), shorter_runValue⟩

/-- Reads an argument: a value, or a name, an equals sign and a value. -/
def runArgument (value : Reader Value) (ts : List Token) : Outcome Argument :=
  match ts with
  | .word name :: .equals :: ts =>
    match value.run ts with
    | .found v rest => .found ⟨some name, v⟩ rest
    | .failed rest => .failed rest
  | ts =>
    match value.run ts with
    | .found v rest => .found ⟨none, v⟩ rest
    | .failed rest => .failed rest

theorem shorter_runArgument {value : Reader Value} {ts : List Token} {a : Argument}
    {rest : List Token} (h : runArgument value ts = .found a rest) : rest.length < ts.length := by
  unfold runArgument at h
  split at h
  · split at h
    · next hv =>
      cases h
      have := value.shorter hv
      simp only [List.length_cons]
      omega
    · contradiction
  · split at h
    · next hv => cases h; exact value.shorter hv
    · contradiction

/-- Reads an argument in which vectors may nest `room` levels. -/
def argument (room : Nat) : Reader Argument := ⟨runArgument (value room), shorter_runArgument⟩

/-- Reads the arguments of a call after its opening parenthesis. -/
def readArguments (room : Nat) (ts : List Token) : Outcome (List Argument) :=
  readItems (argument room) .closeParen ts

/-! ### Skipping a statement -/

/-- The tokens after a statement: after the first semicolon outside all brackets, or after the
brace that closes its last bracket.  A closing brace outside all brackets belongs to the block
around the statement and is left. -/
def skipStatement : (depth : Nat) → List Token → List Token
  | _, [] => []
  | depth, t :: ts =>
    match t with
    | .openParen | .openBracket | .openBrace => skipStatement (depth + 1) ts
    | .closeParen | .closeBracket => skipStatement (depth - 1) ts
    | .closeBrace =>
      if depth = 0 then t :: ts else if depth = 1 then ts else skipStatement (depth - 1) ts
    | .semicolon => if depth = 0 then ts else skipStatement depth ts
    | _ => skipStatement depth ts

theorem length_skipStatement_le (depth : Nat) (ts : List Token) :
    (skipStatement depth ts).length ≤ ts.length := by
  induction ts generalizing depth with
  | nil => simp [skipStatement]
  | cons t ts ih =>
    have (d : Nat) : (skipStatement d ts).length ≤ (t :: ts).length :=
      Nat.le_succ_of_le (ih d)
    unfold skipStatement
    split
    any_goals exact this _
    · split
      · exact Nat.le_refl _
      · split
        · exact Nat.le_succ _
        · exact this _
    · split
      · exact Nat.le_succ _
      · exact this _

theorem length_skipStatement_lt {t : Token} (ht : t ≠ .closeBrace) (ts : List Token) :
    (skipStatement 0 (t :: ts)).length < (t :: ts).length := by
  have (d : Nat) : (skipStatement d ts).length < (t :: ts).length :=
    Nat.lt_succ_of_le (length_skipStatement_le d ts)
  unfold skipStatement
  split
  any_goals exact this _
  · contradiction
  · exact Nat.lt_succ_self _

/-! ### Statements -/

/-- The calls of one statement, or none and the tokens after the statement where it is not well
formed. -/
def readOrSkip (one : Reader (List Node)) (ts : List Token) : List Node × List Token :=
  match one.run ts with
  | .found nodes rest => (nodes, rest)
  | .failed _ => ([], skipStatement 0 ts)

theorem shorter_readOrSkip (one : Reader (List Node)) {t : Token} (ht : t ≠ .closeBrace)
    (ts : List Token) : (readOrSkip one (t :: ts)).2.length < (t :: ts).length := by
  unfold readOrSkip
  split
  · next h => exact one.shorter h
  · exact length_skipStatement_lt ht ts

/-- The calls of a block up to its closing brace, after the calls `nodes`, the last of which
comes first. -/
def readBlockFrom (one : Reader (List Node)) (nodes : List Node) : List Token →
    Outcome (List Node)
  | [] => .failed []
  | t :: ts =>
    if _h : t = .closeBrace then .found nodes.reverse ts
    else
      let next := readOrSkip one (t :: ts)
      readBlockFrom one (next.1.reverse ++ nodes) next.2
termination_by ts => ts.length
decreasing_by exact shorter_readOrSkip one _h ts

/-- The calls of a block after its opening brace. -/
def readBlock (one : Reader (List Node)) (ts : List Token) : Outcome (List Node) :=
  readBlockFrom one [] ts

theorem shorter_readBlockFrom {one : Reader (List Node)} {nodes : List Node} {ts : List Token}
    {found : List Node} {rest : List Token}
    (h : readBlockFrom one nodes ts = .found found rest) : rest.length < ts.length := by
  fun_induction readBlockFrom one nodes ts with
  | case1 => contradiction
  | case2 nodes ts => cases h; exact Nat.lt_succ_self _
  | case3 nodes t ts ht next ih => exact Nat.lt_trans (ih h) (shorter_readOrSkip one ht ts)

/-- Reads a block one level further in; `inner` is missing at the deepest level. -/
def runBlock (inner : Option (Reader (List Node))) (ts : List Token) : Outcome (List Node) :=
  match inner with
  | none => .failed ts
  | some inner => readBlock inner ts

theorem shorter_runBlock {inner : Option (Reader (List Node))} {ts : List Token}
    {nodes : List Node} {rest : List Token} (h : runBlock inner ts = .found nodes rest) :
    rest.length < ts.length := by
  unfold runBlock at h
  split at h
  · contradiction
  · exact shorter_readBlockFrom h

/-- Reads what a call goes on with: a semicolon, a block, another statement, or nothing where the
script ends. -/
def runChildren (inner : Option (Reader (List Node))) : List Token → Outcome (List Node)
  | [] => .found [] []
  | .semicolon :: ts => .found [] ts
  | .openBrace :: ts => runBlock inner ts
  | ts =>
    match inner with
    | none => .failed ts
    | some inner => inner.run ts

theorem length_runChildren_le {inner : Option (Reader (List Node))} {ts : List Token}
    {nodes : List Node} {rest : List Token} (h : runChildren inner ts = .found nodes rest) :
    rest.length ≤ ts.length := by
  unfold runChildren at h
  split at h
  · cases h; exact Nat.le_refl _
  · cases h; exact Nat.le_succ _
  · exact Nat.le_of_lt (Nat.lt_succ_of_lt (shorter_runBlock h))
  · split at h
    · contradiction
    · next inner => exact Nat.le_of_lt (inner.shorter h)

/-- Reads one statement; `inner` reads those one level further in and is missing at the deepest
level. -/
def runStatement (room : Nat) (inner : Option (Reader (List Node))) :
    List Token → Outcome (List Node)
  | .semicolon :: ts => .found [] ts
  | .openBrace :: ts => runBlock inner ts
  | .word name :: .openParen :: ts =>
    match readArguments room ts with
    | .failed rest => .failed rest
    | .found arguments ts =>
      match runChildren inner ts with
      | .failed rest => .failed rest
      | .found children rest => .found [.call name arguments children] rest
  | ts => .failed ts

theorem shorter_runStatement {room : Nat} {inner : Option (Reader (List Node))}
    {ts : List Token} {nodes : List Node} {rest : List Token}
    (h : runStatement room inner ts = .found nodes rest) : rest.length < ts.length := by
  unfold runStatement at h
  split at h
  · cases h; exact Nat.lt_succ_self _
  · exact Nat.lt_succ_of_lt (shorter_runBlock h)
  · split at h
    · contradiction
    · next hargs =>
      split at h
      · contradiction
      · next hchildren =>
        cases h
        have h₁ := shorter_readItems hargs
        have h₂ := length_runChildren_le hchildren
        simp only [List.length_cons]
        omega
  · contradiction

/-- Reads a statement in which blocks, children and vectors may nest `room` levels. -/
def statementReader : (room : Nat) → Reader (List Node)
  | 0 => ⟨runStatement 0 none, shorter_runStatement⟩
  | room + 1 => ⟨runStatement (room + 1) (some (statementReader room)), shorter_runStatement⟩

/-! ### Scripts -/

/-- How many levels blocks, children and vectors may nest. -/
def deepest : Nat := 256

/-- Reads one statement of a script, at the outermost level. -/
def outermost : Reader (List Node) := statementReader deepest

/-- The calls of all statements, after the calls `nodes`, the last of which comes first.  A
closing brace without an opening one is passed over. -/
def readAllFrom (nodes : List Node) : List Token → List Node
  | [] => nodes.reverse
  | t :: ts =>
    if _h : t = .closeBrace then readAllFrom nodes ts
    else
      let next := readOrSkip outermost (t :: ts)
      readAllFrom (next.1.reverse ++ nodes) next.2
termination_by ts => ts.length
decreasing_by
  · exact Nat.lt_succ_self _
  · exact shorter_readOrSkip outermost _h ts

/-- The calls of all statements of a token list. -/
def readAll (ts : List Token) : List Node := readAllFrom [] ts

/-- The calls of a script. -/
def parse (text : List Char) : List Node := readAll (tokenize text)

end SolidScene.Script
