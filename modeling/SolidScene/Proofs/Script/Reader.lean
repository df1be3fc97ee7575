import SolidScene.Script.Parser

/-!
# Readers level by level

A reader at one level is made from the reader one level further in, if there is one.  The two
lemmas `run_value` and `run_statementReader` say so for all levels at once, and the equations of
`readAll` say how a script is read statement by statement.
-/

namespace SolidScene.Script

/-- The reader of values one level further in than `room` levels allow. -/
def innerValue : (room : Nat) → Option (Reader Value)
  | 0 => none
  | room + 1 => some (value room)

theorem run_value (room : Nat) : (value room).run = runValue (innerValue room) := by
  cases room <;> rfl

/-- What a reader of values has whenever the reader one level further in has it, it has at every
level. -/
theorem value_induct {motive : Reader Value → Prop}
    (h : ∀ room, (∀ r ∈ innerValue room, motive r) → motive (value room)) (room : Nat) :
    motive (value room) := by
  induction room with
  | zero => exact h 0 fun r hr => absurd hr (Option.not_mem_none r)
  | succ room ih =>
    refine h (room + 1) fun r hr => ?_
    obtain rfl := Option.some.inj hr
    exact ih

/-- The reader of statements one level further in than `room` levels allow. -/
def innerStatement : (room : Nat) → Option (Reader (List Node))
  | 0 => none
  | room + 1 => some (statementReader room)

theorem run_statementReader (room : Nat) :
    (statementReader room).run = runStatement room (innerStatement room) := by
  cases room <;> rfl

/-- What a reader of statements has whenever the reader one level further in has it, it has at every
level. -/
theorem statementReader_induct {motive : Reader (List Node) → Prop}
    (h : ∀ room, (∀ r ∈ innerStatement room, motive r) → motive (statementReader room))
    (room : Nat) : motive (statementReader room) := by
  induction room with
  | zero => exact h 0 fun r hr => absurd hr (Option.not_mem_none r)
  | succ room ih =>
    refine h (room + 1) fun r hr => ?_
    obtain rfl := Option.some.inj hr
    exact ih

/-! ### Lists item by item -/

theorem readItemsFrom_eq {α : Type} (item : Reader α) (close : Token) (found : List α)
    (ts : List Token) :
    readItemsFrom item close found ts =
      match item.run ts with
      | .failed rest => .failed rest
      | .found value (t :: rest) =>
        if t = .comma then readItemsFrom item close (value :: found) rest
        else if t = close then .found (value :: found).reverse rest
        else .failed (t :: rest)
      | .found _ [] => .failed [] := by
  rw [readItemsFrom]
  split <;> next h => simp only [h]

theorem readItems_of_head? {α : Type} (item : Reader α) {close : Token} {ts : List Token}
    (h : ts.head? ≠ some close) : readItems item close ts = readItemsFrom item close [] ts := by
  cases ts with
  | nil => rfl
  | cons t ts => rw [readItems, if_neg (by simpa using h)]

/-! ### Blocks statement by statement -/

theorem readBlockFrom_closeBrace (one : Reader (List Node)) (nodes : List Node)
    (ts : List Token) :
    readBlockFrom one nodes (.closeBrace :: ts) = .found nodes.reverse ts := by
  rw [readBlockFrom, dif_pos rfl]

theorem readBlockFrom_of_ne (one : Reader (List Node)) (nodes : List Node) {t : Token}
    (ht : t ≠ .closeBrace) (ts : List Token) :
    readBlockFrom one nodes (t :: ts) =
      readBlockFrom one ((readOrSkip one (t :: ts)).1.reverse ++ nodes)
        (readOrSkip one (t :: ts)).2 := by
  rw [readBlockFrom, dif_neg ht]

/-! ### Scripts statement by statement -/

@[simp] theorem readAllFrom_nil (nodes : List Node) : readAllFrom nodes [] = nodes.reverse := by
  rw [readAllFrom]

theorem readAllFrom_closeBrace (nodes : List Node) (ts : List Token) :
    readAllFrom nodes (.closeBrace :: ts) = readAllFrom nodes ts := by
  rw [readAllFrom, dif_pos rfl]

theorem readAllFrom_of_ne (nodes : List Node) {t : Token} (ht : t ≠ .closeBrace)
    (ts : List Token) :
    readAllFrom nodes (t :: ts) =
      readAllFrom ((readOrSkip outermost (t :: ts)).1.reverse ++ nodes)
        (readOrSkip outermost (t :: ts)).2 := by
  rw [readAllFrom, dif_neg ht]

/-- Induction along the reading of a script, statement by statement. -/
theorem readAll_induct {motive : List Token → Prop} (nil : motive [])
    (closeBrace : ∀ ts, motive ts → motive (.closeBrace :: ts))
    (statement : ∀ t ts, t ≠ .closeBrace → motive (readOrSkip outermost (t :: ts)).2 →
      motive (t :: ts)) (ts : List Token) : motive ts := by
  induction h : ts.length using Nat.strongRecOn generalizing ts with
  | ind n ih =>
    subst h
    cases ts with
    | nil => exact nil
    | cons t ts =>
      by_cases ht : t = .closeBrace
      · subst ht
        exact closeBrace ts (ih _ (Nat.lt_succ_self _) ts rfl)
      · exact statement t ts ht (ih _ (shorter_readOrSkip outermost ht ts) _ rfl)

theorem readAllFrom_eq (nodes : List Node) (ts : List Token) :
    readAllFrom nodes ts = nodes.reverse ++ readAll ts := by
  induction ts using readAll_induct generalizing nodes with
  | nil => simp [readAll]
  | closeBrace ts ih =>
    rw [readAll, readAllFrom_closeBrace, readAllFrom_closeBrace, ih]
    rfl
  | statement t ts ht ih =>
    rw [readAll, readAllFrom_of_ne _ ht, readAllFrom_of_ne _ ht, ih, ih (_ ++ [])]
    simp

@[simp] theorem readAll_nil : readAll [] = [] := readAllFrom_nil []

theorem readAll_closeBrace (ts : List Token) : readAll (.closeBrace :: ts) = readAll ts :=
  readAllFrom_closeBrace [] ts

/-- A script starts with a statement, or with what is skipped, and goes on after it. -/
theorem readAll_of_ne {t : Token} (ht : t ≠ .closeBrace) (ts : List Token) :
    readAll (t :: ts) =
      (readOrSkip outermost (t :: ts)).1 ++ readAll (readOrSkip outermost (t :: ts)).2 := by
  rw [readAll, readAllFrom_of_ne [] ht, readAllFrom_eq]
  simp

theorem readAll_of_found {ts : List Token} {nodes : List Node} {rest : List Token}
    (h : outermost.run ts = .found nodes rest) (hhead : ts.head? ≠ some .closeBrace) :
    readAll ts = nodes ++ readAll rest := by
  cases ts with
  | nil => exact absurd (outermost.shorter h) (Nat.not_lt_zero _)
  | cons t ts => rw [readAll_of_ne (by simpa using hhead), readOrSkip, h]

/-! ### What is left -/

/-- A reader takes tokens off the front only: it leaves an end of the list. -/
def Reader.LeavesEnd {α : Type} (r : Reader α) : Prop :=
  ∀ {ts : List Token} {v : α} {rest : List Token}, r.run ts = .found v rest → rest <:+ ts

theorem readItemsFrom_suffix {α : Type} {item : Reader α} (hitem : item.LeavesEnd)
    {close : Token} {items : List α} {ts : List Token} {values : List α} {rest : List Token}
    (h : readItemsFrom item close items ts = .found values rest) : close :: rest <:+ ts := by
  fun_induction readItemsFrom item close items ts with
  | case1 => contradiction
  | case2 items ts v tail hv ih =>
    have htail : tail <:+ ts := (List.suffix_cons _ tail).trans (hitem hv)
    exact (ih h).trans htail
  | case3 items ts v rest hv =>
    cases h
    exact hitem hv
  | case4 => contradiction
  | case5 => contradiction

/-- A list is read up to its closing token. -/
theorem readItems_suffix {α : Type} {item : Reader α} (hitem : item.LeavesEnd) {close : Token}
    {ts : List Token} {values : List α} {rest : List Token}
    (h : readItems item close ts = .found values rest) : close :: rest <:+ ts := by
  unfold readItems at h
  split at h
  · split at h
    · next hclose =>
      subst hclose
      cases h
      exact List.suffix_rfl
    · exact readItemsFrom_suffix hitem h
  · exact readItemsFrom_suffix hitem h

theorem runValue_suffix {inner : Option (Reader Value)}
    (hinner : ∀ r ∈ inner, r.LeavesEnd) {ts : List Token} {v : Value} {rest : List Token}
    (h : runValue inner ts = .found v rest) : rest <:+ ts := by
  unfold runValue at h
  split at h
  · cases h; exact List.suffix_cons _ _
  · cases h; exact (List.suffix_cons _ _).trans (List.suffix_cons _ _)
  · contradiction
  · cases h; exact List.suffix_cons _ _
  · split at h
    · contradiction
    · next item =>
      split at h
      · next hitems =>
        cases h
        have hclose := readItems_suffix (hinner item rfl) hitems
        exact ((List.suffix_cons _ _).trans hclose).trans (List.suffix_cons _ _)
      · contradiction
  · contradiction

theorem value_leavesEnd (room : Nat) : (value room).LeavesEnd := by
  apply value_induct (motive := Reader.LeavesEnd)
  intro room hinner ts v rest h
  rw [run_value] at h
  exact runValue_suffix hinner h

theorem argument_leavesEnd (room : Nat) : (argument room).LeavesEnd := by
  intro ts a rest h
  change runArgument (value room) ts = _ at h
  unfold runArgument at h
  split at h
  · split at h
    · next hv =>
      cases h
      have hrest := value_leavesEnd room hv
      exact hrest.trans ((List.suffix_cons _ _).trans (List.suffix_cons _ _))
    · contradiction
  · split at h
    · next hv => cases h; exact value_leavesEnd room hv
    · contradiction

/-- The arguments of a call are read up to a closing parenthesis. -/
theorem readArguments_suffix {room : Nat} {ts : List Token} {arguments : List Argument}
    {rest : List Token} (h : readArguments room ts = .found arguments rest) :
    .closeParen :: rest <:+ ts :=
  readItems_suffix (argument_leavesEnd room) h

theorem skipStatement_suffix (depth : Nat) (ts : List Token) : skipStatement depth ts <:+ ts := by
  induction ts generalizing depth with
  | nil => exact List.suffix_rfl
  | cons t ts ih =>
    have hskip (d : Nat) : skipStatement d ts <:+ t :: ts := (ih d).trans (List.suffix_cons t ts)
    unfold skipStatement
    split
    any_goals exact hskip _
    · split
      · exact List.suffix_rfl
      · split
        · exact List.suffix_cons _ _
        · exact hskip _
    · split
      · exact List.suffix_cons _ _
      · exact hskip _

end SolidScene.Script
