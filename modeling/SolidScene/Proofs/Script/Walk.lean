import SolidScene.Script.Parser

/-!
# Reading with a cursor

The readers of a script take tokens off the front of a list and are told how much room is left; that
they end is part of what a reader is.  Here the same grammar is read with a `Cursor`: an index into
the tokens, which is set back where a statement is not well formed, and a depth, which is counted up
where a level is opened and down where it is left.  The end of the tokens is the end of the input.

The loops are taken as they are: nothing in their definitions makes them end, and one that ran on
would have no result.  That none does is shown in `SolidScene.Proofs.Script.Progress`.
-/

namespace SolidScene.Script

/-- Where reading stands: how many tokens are taken, how many levels are open, and the most levels
that have been open so far. -/
structure Cursor where
  index : Nat
  depth : Nat
  peak : Nat

namespace Cursor

/-- The cursor before the first token. -/
def start : Cursor := ⟨0, 0, 0⟩

/-- The token at a cursor; nothing at the end of the tokens. -/
def current? (tokens : List Token) (c : Cursor) : Option Token := tokens[c.index]?

/-- The cursor after one more token; at the end of the tokens it stays. -/
def advance (tokens : List Token) (c : Cursor) : Cursor :=
  if c.index < tokens.length then { c with index := c.index + 1 } else c

/-- The cursor one level further in, if there is room for it. -/
def enter? (c : Cursor) : Option Cursor :=
  if c.depth < deepest then
    some { c with depth := c.depth + 1, peak := max c.peak (c.depth + 1) }
  else none

/-- The cursor one level further out. -/
def leave (c : Cursor) : Cursor := { c with depth := c.depth - 1 }

end Cursor

/-- Where reading with a cursor stops: with a value, or with none where the tokens are not well
formed. -/
structure Stop (α : Type) where
  value : Option α
  cursor : Cursor

/-! ### Walks

A walk that goes on names the cursor from which it does; all walks of a script are over the same
tokens.
-/

mutual

/-- Reads a value. -/
def walkValue (tokens : List Token) (c : Cursor) : Option (Stop Value) :=
  match c.current? tokens with
  | some (.number x) => some ⟨some (.number false x), c.advance tokens⟩
  | some .minus =>
    match (c.advance tokens).current? tokens with
    | some (.number x) => some ⟨some (.number true x), (c.advance tokens).advance tokens⟩
    | _ => some ⟨none, c.advance tokens⟩
  | some (.word name) => some ⟨some (.word name), c.advance tokens⟩
  | some .openBracket =>
    match (c.advance tokens).enter? with
    | none => some ⟨none, c.advance tokens⟩
    | some inner => do
      let s ← (walkVector (c := inner)) tokens
      some ⟨s.value.map .vector, s.cursor.leave⟩
  | _ => some ⟨none, c⟩
partial_fixpoint

/-- Reads the items of a vector after its opening bracket. -/
def walkVector (tokens : List Token) (c : Cursor) : Option (Stop (List Value)) :=
  if c.current? tokens = some .closeBracket then some ⟨some [], c.advance tokens⟩
  else (walkVectorFrom (c := c)) tokens []
partial_fixpoint

/-- Reads items up to the bracket that closes a vector, after the items `found`. -/
def walkVectorFrom (tokens : List Token) (found : List Value) (c : Cursor) :
    Option (Stop (List Value)) := do
  let s ← (walkValue (c := c)) tokens
  match s.value with
  | none => some ⟨none, s.cursor⟩
  | some v =>
    if s.cursor.current? tokens = some .comma then
      (walkVectorFrom (c := s.cursor.advance tokens)) tokens (found ++ [v])
    else if s.cursor.current? tokens = some .closeBracket then
      some ⟨some (found ++ [v]), s.cursor.advance tokens⟩
    else some ⟨none, s.cursor⟩
partial_fixpoint

end

/-- Reads an argument. -/
def walkArgument (tokens : List Token) (c : Cursor) : Option (Stop Argument) :=
  match c.current? tokens, (c.advance tokens).current? tokens with
  | some (.word name), some .equals => do
    let s ← walkValue tokens ((c.advance tokens).advance tokens)
    some ⟨s.value.map fun v => ⟨some name, v⟩, s.cursor⟩
  | _, _ => do
    let s ← walkValue tokens c
    some ⟨s.value.map fun v => ⟨none, v⟩, s.cursor⟩

/-- Reads arguments up to the parenthesis that closes them, after the arguments `found`. -/
def walkArgumentsFrom (tokens : List Token) (found : List Argument) (c : Cursor) :
    Option (Stop (List Argument)) := do
  let s ← walkArgument tokens c
  match s.value with
  | none => some ⟨none, s.cursor⟩
  | some a =>
    if s.cursor.current? tokens = some .comma then
      (walkArgumentsFrom (c := s.cursor.advance tokens)) tokens (found ++ [a])
    else if s.cursor.current? tokens = some .closeParen then
      some ⟨some (found ++ [a]), s.cursor.advance tokens⟩
    else some ⟨none, s.cursor⟩
partial_fixpoint

/-- Reads the arguments of a call after its opening parenthesis. -/
def walkArguments (tokens : List Token) (c : Cursor) : Option (Stop (List Argument)) :=
  if c.current? tokens = some .closeParen then some ⟨some [], c.advance tokens⟩
  else walkArgumentsFrom tokens [] c

/-- Skips a statement of which so many brackets are open. -/
def walkSkip (tokens : List Token) (brackets : Nat) (c : Cursor) : Option Cursor :=
  match c.current? tokens with
  | none => some c
  | some .openParen | some .openBracket | some .openBrace =>
    (walkSkip (c := c.advance tokens)) tokens (brackets + 1)
  | some .closeParen | some .closeBracket =>
    (walkSkip (c := c.advance tokens)) tokens (brackets - 1)
  | some .closeBrace =>
    if brackets = 0 then some c
    else if brackets = 1 then some (c.advance tokens)
    else (walkSkip (c := c.advance tokens)) tokens (brackets - 1)
  | some .semicolon =>
    if brackets = 0 then some (c.advance tokens)
    else (walkSkip (c := c.advance tokens)) tokens brackets
  | some _ => (walkSkip (c := c.advance tokens)) tokens brackets
partial_fixpoint

mutual

/-- Reads one statement. -/
def walkStatement (tokens : List Token) (c : Cursor) : Option (Stop (List Node)) :=
  match c.current? tokens, (c.advance tokens).current? tokens with
  | some .semicolon, _ => some ⟨some [], c.advance tokens⟩
  | some .openBrace, _ => (walkBlock (c := c.advance tokens)) tokens
  | some (.word name), some .openParen => do
    let s ← walkArguments tokens ((c.advance tokens).advance tokens)
    match s.value with
    | none => some ⟨none, s.cursor⟩
    | some arguments => do
      let s ← (walkChildren (c := s.cursor)) tokens
      some ⟨s.value.map fun children => [.call name arguments children], s.cursor⟩
  | _, _ => some ⟨none, c⟩
partial_fixpoint

/-- Reads a block after its opening brace, one level further in. -/
def walkBlock (tokens : List Token) (c : Cursor) : Option (Stop (List Node)) :=
  match c.enter? with
  | none => some ⟨none, c⟩
  | some inner => do
    let s ← (walkBlockFrom (c := inner)) tokens []
    some ⟨s.value, s.cursor.leave⟩
partial_fixpoint

/-- Reads statements up to the brace that closes a block, after the calls `nodes`. -/
def walkBlockFrom (tokens : List Token) (nodes : List Node) (c : Cursor) :
    Option (Stop (List Node)) :=
  match c.current? tokens with
  | none => some ⟨none, c⟩
  | some .closeBrace => some ⟨some nodes, c.advance tokens⟩
  | some _ => do
    let (more, c) ← (walkOrSkip (c := c)) tokens
    (walkBlockFrom (c := c)) tokens (nodes ++ more)
partial_fixpoint

/-- Reads one statement, or goes back to its start and skips it where it is not well formed. -/
def walkOrSkip (tokens : List Token) (c : Cursor) : Option (List Node × Cursor) := do
  let s ← (walkStatement (c := c)) tokens
  match s.value with
  | some nodes => some (nodes, s.cursor)
  | none => do
    let c ← walkSkip tokens 0 { s.cursor with index := c.index }
    some ([], c)
partial_fixpoint

/-- Reads what a call goes on with. -/
def walkChildren (tokens : List Token) (c : Cursor) : Option (Stop (List Node)) :=
  match c.current? tokens with
  | none => some ⟨some [], c⟩
  | some .semicolon => some ⟨some [], c.advance tokens⟩
  | some .openBrace => (walkBlock (c := c.advance tokens)) tokens
  | some _ =>
    match c.enter? with
    | none => some ⟨none, c⟩
    | some inner => do
      let s ← (walkStatement (c := inner)) tokens
      some ⟨s.value, s.cursor.leave⟩
partial_fixpoint

end

/-- Reads a script to its end, after the calls `nodes`. -/
def walkAllFrom (tokens : List Token) (nodes : List Node) (c : Cursor) :
    Option (List Node × Cursor) :=
  match c.current? tokens with
  | none => some (nodes, c)
  | some .closeBrace => (walkAllFrom (c := c.advance tokens)) tokens nodes
  | some _ => do
    let (more, c) ← walkOrSkip tokens c
    (walkAllFrom (c := c)) tokens (nodes ++ more)
partial_fixpoint

/-! ### Cursors within the tokens and the levels -/

namespace Cursor

variable {tokens : List Token} {c : Cursor}

/-- The tokens from a cursor on. -/
def left (tokens : List Token) (c : Cursor) : List Token := tokens.drop c.index

/-- How many more levels may be opened at a cursor. -/
def room (c : Cursor) : Nat := deepest - c.depth

/-- A cursor that is not beyond the end of the tokens, at a level that may be opened, and that has
not been any deeper. -/
structure Inside (tokens : List Token) (c : Cursor) : Prop where
  index_le : c.index ≤ tokens.length
  depth_le : c.depth ≤ deepest
  peak_le : c.peak ≤ deepest

theorem current?_of_nil (h : c.left tokens = []) : c.current? tokens = none := by
  rw [current?, ← List.head?_drop]
  exact congrArg List.head? h

theorem current?_of_cons {t : Token} {rest : List Token} (h : c.left tokens = t :: rest) :
    c.current? tokens = some t := by
  rw [current?, ← List.head?_drop]
  exact congrArg List.head? h

theorem left_advance (tokens : List Token) (c : Cursor) :
    (c.advance tokens).left tokens = (c.left tokens).tail := by
  unfold advance left
  split
  · rw [List.tail_drop]
  · next h =>
    rw [List.drop_eq_nil_of_le (Nat.le_of_not_lt h)]
    rfl

theorem left_advance_of_cons {t : Token} {rest : List Token} (h : c.left tokens = t :: rest) :
    (c.advance tokens).left tokens = rest := by
  rw [left_advance, h, List.tail_cons]

theorem left_eq_cons {t : Token} (h : c.current? tokens = some t) :
    c.left tokens = t :: (c.advance tokens).left tokens := by
  cases hleft : c.left tokens with
  | nil =>
    rw [current?_of_nil hleft] at h
    cases h
  | cons u rest =>
    rw [current?_of_cons hleft] at h
    rw [left_advance_of_cons hleft, Option.some.inj h]

theorem length_left (tokens : List Token) (c : Cursor) :
    (c.left tokens).length = tokens.length - c.index := List.length_drop

@[simp] theorem depth_advance (tokens : List Token) (c : Cursor) :
    (c.advance tokens).depth = c.depth := by
  unfold advance
  split <;> rfl

@[simp] theorem peak_advance (tokens : List Token) (c : Cursor) :
    (c.advance tokens).peak = c.peak := by
  unfold advance
  split <;> rfl

theorem room_of_depth_eq {c' : Cursor} (h : c'.depth = c.depth) : c'.room = c.room := by
  rw [room, room, h]

theorem Inside.advance (h : c.Inside tokens) : (c.advance tokens).Inside tokens := by
  refine ⟨?_, ?_, ?_⟩
  · unfold Cursor.advance
    split
    · assumption
    · exact h.index_le
  · rw [depth_advance]
    exact h.depth_le
  · rw [peak_advance]
    exact h.peak_le

theorem Inside.leave (h : c.Inside tokens) : c.leave.Inside tokens :=
  ⟨h.index_le, Nat.le_trans (Nat.sub_le _ _) h.depth_le, h.peak_le⟩

/-- A level is opened wherever there is room for it. -/
theorem Inside.enter (h : c.Inside tokens) :
    c.enter? = none ∧ c.room = 0 ∨
      ∃ inner, c.enter? = some inner ∧ inner.Inside tokens ∧ inner.left tokens = c.left tokens ∧
        inner.depth = c.depth + 1 ∧ c.room = inner.room + 1 := by
  unfold enter?
  split
  · next hroom =>
    refine Or.inr ⟨_, rfl, ⟨h.index_le, hroom, Nat.max_le.2 ⟨h.peak_le, hroom⟩⟩, rfl, rfl, ?_⟩
    simp only [room]
    omega
  · next hroom =>
    refine Or.inl ⟨rfl, ?_⟩
    simp only [room]
    omega

end Cursor

end SolidScene.Script
