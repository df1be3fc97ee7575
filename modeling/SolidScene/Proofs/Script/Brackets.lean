import SolidScene.Proofs.Script.Grammar
import SolidScene.Proofs.Script.Recovery

/-!
# Brackets of the grammar

The tokens of each part of the grammar close all brackets that they open.  Skipping a statement only
counts brackets, so it passes over such tokens where a bracket around them is open
(`skipStatement_append_of_closes`), and outside all brackets it passes over the tokens of one
statement and no more (`skipStatement_tokens`).
-/

namespace SolidScene.Script

/-! ### Rows that close their brackets -/

section Closes

variable {inner outer next row more : List Token} {t : Token}

theorem awaitedAfter_append (h : awaitedAfter inner t = some next) (outer : List Token) :
    awaitedAfter (inner ++ outer) t = some (next ++ outer) := by
  by_cases ht : t.isCloser
  · rw [awaitedAfter_of_isCloser ht] at h ⊢
    by_cases hhead : inner.head? = some t
    · obtain ⟨tail, rfl⟩ := List.head?_eq_some_iff.1 hhead
      rw [if_pos hhead] at h
      cases h
      exact if_pos rfl
    · rw [if_neg hhead] at h
      cases h
  · cases t <;> first | (cases h; rfl) | exact absurd rfl ht

theorem closes_cons (h : closes inner (t :: row)) :
    ∃ next, awaitedAfter inner t = some next ∧ closes next row := by
  rw [closes, Option.any_eq_true] at h
  exact h

theorem closes_append (h : closes inner row) (h' : closes outer more) :
    closes (inner ++ outer) (row ++ more) := by
  induction row generalizing inner with
  | nil =>
    obtain rfl : inner = [] := by simpa [closes] using h
    exact h'
  | cons t row ih =>
    obtain ⟨next, hnext, hrow⟩ := closes_cons h
    rw [List.cons_append, closes, awaitedAfter_append hnext]
    exact ih hrow

/-- Rows that close their brackets do so one after another. -/
theorem balanced_append (h : balanced row) (h' : balanced more) : balanced (row ++ more) :=
  closes_append h h'

/-- Skipping with a bracket open around a row that closes its brackets passes over the row. -/
theorem skipStatement_append_of_closes (h : closes inner row) (depth : Nat) (rest : List Token) :
    skipStatement (inner.length + (depth + 1)) (row ++ rest) = skipStatement (depth + 1) rest := by
  induction row generalizing inner with
  | nil =>
    obtain rfl : inner = [] := by simpa [closes] using h
    rw [List.length_nil, Nat.zero_add, List.nil_append]
  | cons t row ih =>
    obtain ⟨next, hnext, hrow⟩ := closes_cons h
    have hskip := ih hrow
    by_cases ht : t.isCloser
    · rw [awaitedAfter_of_isCloser ht] at hnext
      by_cases hhead : inner.head? = some t
      · obtain ⟨tail, rfl⟩ := List.head?_eq_some_iff.1 hhead
        rw [if_pos hhead] at hnext
        cases hnext
        -- The closing bracket is not the last one that is counted.
        obtain ⟨n, hn⟩ : ∃ n, (t :: tail).length + (depth + 1) = n + 2 :=
          ⟨tail.length + depth, by simp only [List.length_cons]; omega⟩
        have hn' : tail.length + (depth + 1) = n + 1 := by
          simp only [List.length_cons] at hn
          omega
        rw [List.tail_cons, hn'] at hskip
        rw [hn, List.cons_append]
        cases t <;> first | exact hskip | cases ht
      · rw [if_neg hhead] at hnext
        cases hnext
    · cases t with
      | openParen | openBracket | openBrace =>
        cases hnext
        rw [List.length_cons, Nat.add_right_comm] at hskip
        exact hskip
      | closeParen | closeBracket | closeBrace => exact absurd rfl ht
      | semicolon =>
        cases hnext
        rw [← Nat.add_assoc] at hskip ⊢
        exact hskip
      | _ => cases hnext; exact hskip

end Closes

/-! ### The rows of the grammar -/

theorem balanced_separated {rows : List (List Token)} (h : ∀ row ∈ rows, balanced row) :
    balanced (separated rows) := by
  induction rows with
  | nil => rfl
  | cons row rest ih =>
    obtain ⟨hrow, hrest⟩ := List.forall_mem_cons.1 h
    cases rest with
    | nil => exact hrow
    | cons next rest => exact balanced_append hrow (ih hrest)

/-- A row of tokens between an opening bracket and the one that closes it. -/
theorem balanced_between {row : List Token} (h : balanced row) :
    balanced (.openParen :: (row ++ [.closeParen])) ∧
      balanced (.openBracket :: (row ++ [.closeBracket])) ∧
      balanced (.openBrace :: (row ++ [.closeBrace])) := by
  have hparen : closes [.closeParen] [.closeParen] := rfl
  have hbracket : closes [.closeBracket] [.closeBracket] := rfl
  have hbrace : closes [.closeBrace] [.closeBrace] := rfl
  exact ⟨closes_append h hparen, closes_append h hbracket, closes_append h hbrace⟩

theorem Value.balanced_tokens (v : Value) : balanced v.tokens := by
  induction v with
  | number negative magnitude => cases negative <;> rfl
  | word name => rfl
  | vector items ih =>
    have hitems : balanced (separated (items.map Value.tokens)) :=
      balanced_separated (List.forall_mem_map.2 ih)
    rw [Value.tokens, itemTokens_eq_map]
    exact (balanced_between hitems).2.1

theorem Argument.balanced_tokens (a : Argument) : balanced a.tokens := by
  obtain ⟨_ | name, v⟩ := a
  · exact v.balanced_tokens
  · have hname : balanced [.word name, .equals] := rfl
    exact balanced_append hname v.balanced_tokens

theorem balanced_arguments (arguments : List Argument) :
    balanced (separated (arguments.map Argument.tokens)) :=
  balanced_separated (List.forall_mem_map.2 fun a _ => a.balanced_tokens)

theorem balanced_callTokens (name : String) (arguments : List Argument) :
    balanced (callTokens name arguments) := by
  have hname : balanced [.word name] := rfl
  exact balanced_append hname (balanced_between (balanced_arguments arguments)).1

theorem balanced_tokensOf {body : List Statement} (h : ∀ s ∈ body, balanced s.tokens) :
    balanced (tokensOf body) := by
  induction body with
  | nil => rfl
  | cons s rest ih =>
    obtain ⟨hs, hrest⟩ := List.forall_mem_cons.1 h
    rw [tokensOf]
    exact balanced_append hs (ih hrest)

theorem Statement.balanced_tokens (s : Statement) : balanced s.tokens := by
  induction s with
  | empty => rfl
  | block body ih => exact (balanced_between (balanced_tokensOf ih)).2.2
  | call name arguments => exact balanced_append (balanced_callTokens name arguments) rfl
  | callBlock name arguments body ih =>
    exact balanced_append (balanced_callTokens name arguments)
      (balanced_between (balanced_tokensOf ih)).2.2
  | callNext name arguments next ih =>
    exact balanced_append (balanced_callTokens name arguments) ih

/-! ### Skipping one statement -/

/-- Skipping passes over a row in brackets up to the bracket that closes it. -/
theorem skipStatement_one_append {row : List Token} (h : balanced row) (rest : List Token) :
    skipStatement 1 (row ++ rest) = skipStatement 1 rest :=
  skipStatement_append_of_closes h 0 rest

/-- Skipping passes over a name with its arguments, which end no statement. -/
theorem skipStatement_callTokens (name : String) (arguments : List Argument) (rest : List Token) :
    skipStatement 0 (callTokens name arguments ++ rest) = skipStatement 0 rest := by
  have hskip := skipStatement_one_append (balanced_arguments arguments) (.closeParen :: rest)
  rw [callTokens, List.cons_append, List.cons_append, List.append_assoc]
  exact hskip

theorem skipStatement_blockTokens (body : List Statement) (rest : List Token) :
    skipStatement 0 (.openBrace :: (tokensOf body ++ .closeBrace :: rest)) = rest :=
  skipStatement_one_append (balanced_tokensOf fun s _ => s.balanced_tokens) (.closeBrace :: rest)

/-- **Skipping passes over one statement** and leaves what stands after it. -/
theorem skipStatement_tokens (s : Statement) (rest : List Token) :
    skipStatement 0 (s.tokens ++ rest) = rest := by
  induction s with
  | empty => rfl
  | block body =>
    rw [Statement.tokens, List.cons_append, List.append_assoc]
    exact skipStatement_blockTokens body rest
  | call name arguments =>
    rw [Statement.tokens, List.append_assoc, skipStatement_callTokens]
    rfl
  | callBlock name arguments body =>
    rw [Statement.tokens, List.append_assoc, skipStatement_callTokens, List.cons_append,
      List.append_assoc]
    exact skipStatement_blockTokens body rest
  | callNext name arguments next ih =>
    rw [Statement.tokens, List.append_assoc, skipStatement_callTokens, ih]

end SolidScene.Script
