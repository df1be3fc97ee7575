import SolidScene.Proofs.Script.Layout
import SolidScene.Proofs.Script.Reader

/-!
# The grammar of scripts

The tokens of a value, an argument and a statement, and how deep each of them nests.  Reading is
the inverse of writing down these tokens: `Statement.readsBack` says so for one statement with
anything after it, and `parse_of_layout` for a whole script in any layout, as long as it nests no
deeper than `deepest`.  Conversely a value or an argument that is read stood there with its tokens
(`value_takes`, `argument_takes`).
-/

namespace SolidScene.Script

/-! ### Tokens -/

/-- Rows of tokens with a comma between each two. -/
def separated : List (List Token) → List Token
  | [] => []
  | [row] => row
  | row :: rest => row ++ .comma :: separated rest

mutual

/-- The tokens of a value. -/
def Value.tokens : Value → List Token
  | .number negative magnitude => (if negative then [.minus] else []) ++ [.number magnitude]
  | .word name => [.word name]
  | .vector items => .openBracket :: (separated (itemTokens items) ++ [.closeBracket])

/-- The tokens of each item of a vector. -/
def itemTokens : List Value → List (List Token)
  | [] => []
  | item :: rest => item.tokens :: itemTokens rest

end

/-- The tokens of an argument. -/
def Argument.tokens (a : Argument) : List Token :=
  match a.name with
  | some name => .word name :: .equals :: a.value.tokens
  | none => a.value.tokens

/-- The tokens of a name with its arguments. -/
def callTokens (name : String) (arguments : List Argument) : List Token :=
  .word name :: .openParen :: (separated (arguments.map Argument.tokens) ++ [.closeParen])

mutual

/-- The tokens of a statement. -/
def Statement.tokens : Statement → List Token
  | .empty => [.semicolon]
  | .block body => .openBrace :: (tokensOf body ++ [.closeBrace])
  | .call name arguments => callTokens name arguments ++ [.semicolon]
  | .callBlock name arguments body =>
    callTokens name arguments ++ .openBrace :: (tokensOf body ++ [.closeBrace])
  | .callNext name arguments next => callTokens name arguments ++ next.tokens

/-- The tokens of some statements, one after another. -/
def tokensOf : List Statement → List Token
  | [] => []
  | s :: rest => s.tokens ++ tokensOf rest

end

theorem itemTokens_eq_map (items : List Value) : itemTokens items = items.map Value.tokens := by
  induction items with
  | nil => rfl
  | cons item rest ih => simp [itemTokens, ih]

/-! ### Depth -/

mutual

/-- How many levels vectors nest in a value. -/
def Value.depth : Value → Nat
  | .number _ _ => 0
  | .word _ => 0
  | .vector items => depthOfItems items + 1

/-- How many levels vectors nest in the deepest of some values. -/
def depthOfItems : List Value → Nat
  | [] => 0
  | item :: rest => max item.depth (depthOfItems rest)

end

/-- How many levels vectors nest in the deepest of some arguments. -/
def depthOfArguments (arguments : List Argument) : Nat :=
  depthOfItems (arguments.map Argument.value)

/-- Whether a statement is a call. -/
def Statement.isCall : Statement → Bool
  | .empty | .block _ => false
  | .call _ _ | .callBlock _ _ _ | .callNext _ _ _ => true

mutual

/-- How many levels blocks, calls after calls and vectors nest in a statement. -/
def Statement.depth : Statement → Nat
  | .empty => 0
  | .block body => depthOf body + 1
  | .call _ arguments => depthOfArguments arguments
  | .callBlock _ arguments body => max (depthOfArguments arguments) (depthOf body + 1)
  | .callNext _ arguments next =>
    max (depthOfArguments arguments) (next.depth + next.isCall.toNat)

/-- How many levels the deepest of some statements nests. -/
def depthOf : List Statement → Nat
  | [] => 0
  | s :: rest => max s.depth (depthOf rest)

end

theorem depth_le_of_mem_items {items : List Value} {v : Value} (h : v ∈ items) :
    v.depth ≤ depthOfItems items := by
  induction items with
  | nil => cases h
  | cons item rest ih =>
    rw [depthOfItems]
    rcases List.mem_cons.1 h with rfl | h
    · exact Nat.le_max_left _ _
    · exact Nat.le_trans (ih h) (Nat.le_max_right _ _)

theorem depth_le_of_mem {body : List Statement} {s : Statement} (h : s ∈ body) :
    s.depth ≤ depthOf body := by
  induction body with
  | nil => cases h
  | cons first rest ih =>
    rw [depthOf]
    rcases List.mem_cons.1 h with rfl | h
    · exact Nat.le_max_left _ _
    · exact Nat.le_trans (ih h) (Nat.le_max_right _ _)

theorem depthOf_le {body : List Statement} {n : Nat} (h : ∀ s ∈ body, s.depth ≤ n) :
    depthOf body ≤ n := by
  induction body with
  | nil => exact Nat.zero_le n
  | cons first rest ih =>
    rw [depthOf, Nat.max_le]
    exact ⟨h first List.mem_cons_self, ih fun s hs => h s (List.mem_cons_of_mem _ hs)⟩

/-! ### Induction -/

/-- Induction over values: a vector may use what holds of its items. -/
@[elab_as_elim, induction_eliminator]
theorem Value.induct {motive : Value → Prop}
    (number : ∀ negative magnitude, motive (.number negative magnitude))
    (word : ∀ name, motive (.word name))
    (vector : ∀ items, (∀ v ∈ items, motive v) → motive (.vector items)) (v : Value) :
    motive v :=
  match v with
  | .number negative magnitude => number negative magnitude
  | .word name => word name
  | .vector items => vector items fun v _ => Value.induct number word vector v

/-- Induction over statements: a block may use what holds of the statements in it. -/
@[elab_as_elim, induction_eliminator]
theorem Statement.induct {motive : Statement → Prop} (empty : motive .empty)
    (block : ∀ body, (∀ s ∈ body, motive s) → motive (.block body))
    (call : ∀ name arguments, motive (.call name arguments))
    (callBlock : ∀ name arguments body, (∀ s ∈ body, motive s) →
      motive (.callBlock name arguments body))
    (callNext : ∀ name arguments next, motive next → motive (.callNext name arguments next))
    (s : Statement) : motive s :=
  match s with
  | .empty => empty
  | .block body => block body fun s _ => Statement.induct empty block call callBlock callNext s
  | .call name arguments => call name arguments
  | .callBlock name arguments body =>
    callBlock name arguments body fun s _ =>
      Statement.induct empty block call callBlock callNext s
  | .callNext name arguments next =>
    callNext name arguments next (Statement.induct empty block call callBlock callNext next)

/-! ### Reading values and arguments -/

section Items

variable {α : Type} {item : Reader α} {close : Token} {tokens : α → List Token}

/-- Items of which each is read before a comma or the closing token are read as a list. -/
theorem readItemsFrom_separated (hclose : close ≠ .comma) {x : α} {xs : List α}
    (hitem : ∀ y ∈ x :: xs, ∀ t rest, t = .comma ∨ t = close →
      item.run (tokens y ++ t :: rest) = .found y (t :: rest))
    (found : List α) (rest : List Token) :
    readItemsFrom item close found (separated ((x :: xs).map tokens) ++ close :: rest) =
      .found (found.reverse ++ x :: xs) rest := by
  induction xs generalizing x found with
  | nil =>
    have hx := hitem x List.mem_cons_self close rest (Or.inr rfl)
    rw [List.map_singleton, separated, readItemsFrom_eq, hx]
    simp [hclose]
  | cons y xs ih =>
    have hx := hitem x List.mem_cons_self .comma
      (separated ((y :: xs).map tokens) ++ close :: rest) (Or.inl rfl)
    have hxs := ih (fun z hz => hitem z (List.mem_cons_of_mem _ hz)) (x :: found)
    have hsplit : separated ((x :: y :: xs).map tokens) ++ close :: rest =
        tokens x ++ .comma :: (separated ((y :: xs).map tokens) ++ close :: rest) := by
      simp [separated]
    rw [hsplit, readItemsFrom_eq, hx]
    simpa using hxs

theorem head?_separated_append {x : α} (hx : tokens x ≠ []) (xs : List α) (rest : List Token) :
    (separated ((x :: xs).map tokens) ++ rest).head? = (tokens x).head? := by
  obtain ⟨t, ts, ht⟩ := List.exists_cons_of_ne_nil hx
  cases xs <;> simp [separated, ht]

theorem readItems_separated (hclose : close ≠ .comma) {xs : List α}
    (hstart : ∀ y ∈ xs, tokens y ≠ [] ∧ (tokens y).head? ≠ some close)
    (hitem : ∀ y ∈ xs, ∀ t rest, t = .comma ∨ t = close →
      item.run (tokens y ++ t :: rest) = .found y (t :: rest))
    (rest : List Token) :
    readItems item close (separated (xs.map tokens) ++ close :: rest) = .found xs rest := by
  cases xs with
  | nil => simp [separated, readItems]
  | cons x xs =>
    obtain ⟨hne, hhead⟩ := hstart x List.mem_cons_self
    rw [← head?_separated_append hne xs (close :: rest)] at hhead
    rw [readItems_of_head? item hhead, readItemsFrom_separated hclose hitem]
    rfl

end Items

theorem Value.head?_tokens (v : Value) {close : Token}
    (h : close = .closeBracket ∨ close = .closeParen) :
    v.tokens ≠ [] ∧ v.tokens.head? ≠ some close := by
  cases v with
  | number negative magnitude => cases negative <;> rcases h with rfl | rfl <;> simp [Value.tokens]
  | word name => rcases h with rfl | rfl <;> simp [Value.tokens]
  | vector items => rcases h with rfl | rfl <;> simp [Value.tokens]

/-- A value that nests no deeper than the room is read from its tokens, whatever follows. -/
theorem Value.run_tokens (v : Value) {room : Nat} (h : v.depth ≤ room) (rest : List Token) :
    (value room).run (v.tokens ++ rest) = .found v rest := by
  induction v generalizing room rest with
  | number negative magnitude => cases negative <;> rw [run_value] <;> rfl
  | word name => rw [run_value]; rfl
  | vector items ih =>
    obtain ⟨room, rfl⟩ : ∃ inner, room = inner + 1 :=
      Nat.exists_eq_add_one.2 (Nat.lt_of_lt_of_le (Nat.succ_pos _) h)
    have hitems : ∀ v ∈ items, v.depth ≤ room := fun v hv =>
      Nat.le_trans (depth_le_of_mem_items hv) (Nat.le_of_succ_le_succ h)
    have hread : readItems (value room) .closeBracket
        (separated (items.map Value.tokens) ++ .closeBracket :: rest) = .found items rest :=
      readItems_separated (by decide) (fun v _ => v.head?_tokens (Or.inl rfl))
        (fun v hv t rest _ => ih v hv (hitems v hv) (t :: rest)) rest
    simp [Value.tokens, run_value, runValue, innerValue, itemTokens_eq_map, hread]

theorem Argument.run_tokens (a : Argument) {room : Nat} (h : a.value.depth ≤ room) {t : Token}
    (ht : t = .comma ∨ t = .closeParen) (rest : List Token) :
    (argument room).run (a.tokens ++ t :: rest) = .found a (t :: rest) := by
  obtain ⟨name, v⟩ := a
  have hv := v.run_tokens h (t :: rest)
  change runArgument (Script.value room) _ = _
  cases name with
  | some name => simp [Argument.tokens, runArgument, hv]
  | none =>
    -- a bare name is not the name of an argument, since no equals sign follows it
    cases v with
    | number negative magnitude =>
      cases negative <;> simp_all [Argument.tokens, Value.tokens, runArgument]
    | word name =>
      rcases ht with rfl | rfl <;> simp_all [Argument.tokens, Value.tokens, runArgument]
    | vector items => simp_all [Argument.tokens, Value.tokens, runArgument]

theorem readArguments_tokens {arguments : List Argument} {room : Nat}
    (h : depthOfArguments arguments ≤ room) (rest : List Token) :
    readArguments room (separated (arguments.map Argument.tokens) ++ .closeParen :: rest) =
      .found arguments rest := by
  refine readItems_separated (by decide) (fun a _ => ?_) (fun a ha t rest ht => ?_) rest
  · obtain ⟨name, v⟩ := a
    cases name with
    | none => exact v.head?_tokens (Or.inr rfl)
    | some name => simp [Argument.tokens]
  · exact a.run_tokens (Nat.le_trans (depth_le_of_mem_items (List.mem_map_of_mem ha)) h) ht rest

/-! ### Tokens of what is read -/

/-- A reader that takes the tokens of what it finds off the front, and no others. -/
def Reader.Takes {α : Type} (r : Reader α) (tokens : α → List Token) : Prop :=
  ∀ {ts : List Token} {v : α} {rest : List Token}, r.run ts = .found v rest → ts = tokens v ++ rest

section Takes

variable {α : Type} {item : Reader α} {close : Token} {tokens : α → List Token}
  {ts rest : List Token}

/-- A list is read from the tokens of its items with commas between them. -/
theorem readItemsFrom_takes (hitem : item.Takes tokens) {found values : List α}
    (h : readItemsFrom item close found ts = .found values rest) :
    ∃ x xs, values = found.reverse ++ x :: xs ∧
      ts = separated ((x :: xs).map tokens) ++ close :: rest := by
  fun_induction readItemsFrom item close found ts with
  | case1 => contradiction
  | case2 found ts v tail hv ih =>
    obtain ⟨x, xs, rfl, rfl⟩ := ih h
    refine ⟨v, x :: xs, by simp, ?_⟩
    rw [hitem hv]
    simp [separated]
  | case3 found ts v tail hv =>
    cases h
    exact ⟨v, [], List.reverse_cons, hitem hv⟩
  | case4 => contradiction
  | case5 => contradiction

theorem readItems_takes (hitem : item.Takes tokens) {values : List α}
    (h : readItems item close ts = .found values rest) :
    ts = separated (values.map tokens) ++ close :: rest := by
  have hcons (h : readItemsFrom item close [] ts = .found values rest) :
      ts = separated (values.map tokens) ++ close :: rest := by
    obtain ⟨x, xs, rfl, hts⟩ := readItemsFrom_takes hitem h
    exact hts
  cases ts with
  | nil => exact hcons h
  | cons t ts =>
    rw [readItems] at h
    split at h
    · next hclose =>
      subst hclose
      cases h
      rfl
    · exact hcons h

theorem runValue_takes {inner : Option (Reader Value)}
    (hinner : ∀ r ∈ inner, r.Takes Value.tokens) {v : Value}
    (h : runValue inner ts = .found v rest) : ts = v.tokens ++ rest := by
  unfold runValue at h
  split at h
  · cases h; rfl
  · cases h; rfl
  · contradiction
  · cases h; rfl
  · split at h
    · contradiction
    · next item =>
      split at h
      · next hitems =>
        cases h
        rw [readItems_takes (hinner item rfl) hitems, Value.tokens, itemTokens_eq_map,
          List.cons_append, List.append_assoc]
        rfl
      · contradiction
  · contradiction

theorem value_takes (room : Nat) : (value room).Takes Value.tokens := by
  apply value_induct (motive := fun r => r.Takes Value.tokens)
  intro room hinner ts v rest h
  rw [run_value] at h
  exact runValue_takes hinner h

theorem argument_takes (room : Nat) : (argument room).Takes Argument.tokens := by
  intro ts a rest h
  change runArgument (value room) ts = _ at h
  unfold runArgument at h
  split at h
  · split at h
    · next hv =>
      cases h
      rw [value_takes room hv]
      rfl
    · contradiction
  · split at h
    · next hv =>
      cases h
      exact value_takes room hv
    · contradiction

/-- The arguments of a call are read from their tokens. -/
theorem readArguments_takes {room : Nat} {arguments : List Argument}
    (h : readArguments room ts = .found arguments rest) :
    ts = separated (arguments.map Argument.tokens) ++ .closeParen :: rest :=
  readItems_takes (argument_takes room) h

end Takes

/-! ### Reading statements -/

theorem Statement.head?_tokens (s : Statement) (rest : List Token) :
    ∃ t ts, s.tokens ++ rest = t :: ts ∧ t ≠ .closeBrace := by
  cases s <;> exact ⟨_, _, rfl, by simp⟩

/-- A statement is read from its tokens, whatever follows, wherever there is room for it. -/
def Statement.ReadsBack (s : Statement) : Prop :=
  ∀ room, s.depth ≤ room → ∀ rest,
    (statementReader room).run (s.tokens ++ rest) = .found s.nodes rest

theorem readBlockFrom_tokensOf {one : Reader (List Node)} {body : List Statement}
    (h : ∀ s ∈ body, ∀ rest, one.run (s.tokens ++ rest) = .found s.nodes rest)
    (nodes : List Node) (rest : List Token) :
    readBlockFrom one nodes (tokensOf body ++ .closeBrace :: rest) =
      .found (nodes.reverse ++ nodesOf body) rest := by
  induction body generalizing nodes with
  | nil => simp [tokensOf, nodesOf, readBlockFrom_closeBrace]
  | cons s body ih =>
    have hs := h s List.mem_cons_self (tokensOf body ++ .closeBrace :: rest)
    obtain ⟨t, ts, hts, ht⟩ := s.head?_tokens (tokensOf body ++ .closeBrace :: rest)
    rw [tokensOf, List.append_assoc, hts, readBlockFrom_of_ne one nodes ht, ← hts, readOrSkip, hs]
    rw [ih fun s hs => h s (List.mem_cons_of_mem _ hs)]
    simp [nodesOf]

theorem runBlock_tokensOf {body : List Statement} (h : ∀ s ∈ body, s.ReadsBack) {room : Nat}
    (hroom : depthOf body + 1 ≤ room) (rest : List Token) :
    runBlock (innerStatement room) (tokensOf body ++ .closeBrace :: rest) =
      .found (nodesOf body) rest := by
  obtain ⟨room, rfl⟩ : ∃ inner, room = inner + 1 :=
    Nat.exists_eq_add_one.2 (Nat.lt_of_lt_of_le (Nat.succ_pos _) hroom)
  refine readBlockFrom_tokensOf (fun s hs => h s hs room ?_) [] rest
  exact Nat.le_trans (depth_le_of_mem hs) (Nat.le_of_succ_le_succ hroom)

theorem runStatement_callTokens {name : String} {arguments : List Argument} {room : Nat}
    (h : depthOfArguments arguments ≤ room) {inner : Option (Reader (List Node))}
    {ts rest : List Token} {children : List Node}
    (hchildren : runChildren inner ts = .found children rest) :
    runStatement room inner (callTokens name arguments ++ ts) =
      .found [.call name arguments children] rest := by
  simp [callTokens, runStatement, readArguments_tokens h, hchildren]

/-- What a call goes on with is read as its children, at the same level unless it is a call. -/
theorem runChildren_tokens {next : Statement} (h : next.ReadsBack) {room : Nat}
    (hroom : next.depth + next.isCall.toNat ≤ room) (rest : List Token) :
    runChildren (innerStatement room) (next.tokens ++ rest) = .found next.nodes rest := by
  have hcall (hnext : next.isCall) (hword : ∃ name ts, next.tokens ++ rest = .word name :: ts) :
      runChildren (innerStatement room) (next.tokens ++ rest) = .found next.nodes rest := by
    rw [hnext] at hroom
    obtain ⟨room, rfl⟩ : ∃ inner, room = inner + 1 :=
      Nat.exists_eq_add_one.2 (Nat.lt_of_lt_of_le (Nat.succ_pos _) hroom)
    have hread := h room (Nat.le_of_succ_le_succ hroom) rest
    obtain ⟨name, ts, hts⟩ := hword
    rw [hts] at hread ⊢
    exact hread
  -- An empty statement and a block are read at the level of the call.
  cases next with
  | empty => rfl
  | block body =>
    have hread := h room hroom rest
    rw [run_statementReader] at hread
    exact hread
  | call name arguments => exact hcall rfl ⟨_, _, rfl⟩
  | callBlock name arguments body => exact hcall rfl ⟨_, _, rfl⟩
  | callNext name arguments next => exact hcall rfl ⟨_, _, rfl⟩

theorem Statement.readsBack (s : Statement) : s.ReadsBack := by
  induction s with
  | empty =>
    intro room _ rest
    rw [run_statementReader]
    rfl
  | block body ih =>
    intro room hroom rest
    have hblock := runBlock_tokensOf ih hroom rest
    simpa [run_statementReader, Statement.tokens, runStatement, Statement.nodes] using hblock
  | call name arguments =>
    intro room hroom rest
    rw [run_statementReader, Statement.tokens, List.append_assoc]
    exact runStatement_callTokens hroom rfl
  | callBlock name arguments body ih =>
    intro room hroom rest
    rw [Statement.depth, Nat.max_le] at hroom
    have hblock := runBlock_tokensOf ih hroom.2 rest
    rw [run_statementReader, Statement.tokens, List.append_assoc]
    refine runStatement_callTokens hroom.1 ?_
    simpa [runChildren] using hblock
  | callNext name arguments next ih =>
    intro room hroom rest
    rw [Statement.depth, Nat.max_le] at hroom
    rw [run_statementReader, Statement.tokens, List.append_assoc]
    exact runStatement_callTokens hroom.1 (runChildren_tokens ih hroom.2 rest)

/-! ### Reading scripts -/

theorem readAll_tokensOf {script : List Statement} (h : depthOf script ≤ deepest) :
    readAll (tokensOf script) = nodesOf script := by
  induction script with
  | nil => exact readAll_nil
  | cons s rest ih =>
    rw [depthOf, Nat.max_le] at h
    have hs : outermost.run (s.tokens ++ tokensOf rest) = .found s.nodes (tokensOf rest) :=
      s.readsBack deepest h.1 (tokensOf rest)
    obtain ⟨t, ts, hts, ht⟩ := s.head?_tokens (tokensOf rest)
    have hhead : (s.tokens ++ tokensOf rest).head? ≠ some .closeBrace := by simpa [hts] using ht
    rw [tokensOf, readAll_of_found hs hhead, ih h.2, nodesOf]

/-- A script in any layout is parsed to the calls that it makes. -/
theorem parse_of_layout {script : List Statement} (hdepth : depthOf script ≤ deepest)
    {text : List Char} (hlayout : Layout (tokensOf script) text) : parse text = nodesOf script := by
  rw [parse, tokenize_of_layout hlayout, readAll_tokensOf hdepth]

end SolidScene.Script
