import SolidScene.Decimal.Numeral
import SolidScene.Text.Blank

/-!
# Tokens of a script

`tokenize` cuts a script into names, numbers and punctuation.  White space and comments
separate tokens and leave none; a character that starts no token, and a numeral without a
value such as `1e`, become the token `other`, which no statement contains.
-/

namespace SolidScene.Script

open Text

/-- The smallest parts of a script. -/
inductive Token
  | word (name : String)
  | number (value : Decimal)
  | openParen
  | closeParen
  | openBracket
  | closeBracket
  | openBrace
  | closeBrace
  | comma
  | equals
  | semicolon
  | minus
  /-- What no statement contains. -/
  | other
  deriving DecidableEq, Repr

/-! ### Comments -/

/-- The text after the end of a block comment; nothing where it does not end. -/
def afterBlockComment : List Char → List Char
  | '*' :: '/' :: cs => cs
  | _ :: cs => afterBlockComment cs
  | [] => []

/-- The text from the end of the line on. -/
def afterLineComment (cs : List Char) : List Char := cs.dropWhile (· != '\n')

/-- The text after a comment that starts with `c`, if one does. -/
def comment? (c : Char) (cs : List Char) : Option (List Char) :=
  if c = '/' then
    match cs with
    | '/' :: cs => some (afterLineComment cs)
    | '*' :: cs => some (afterBlockComment cs)
    | _ => none
  else none

theorem length_afterBlockComment_le (cs : List Char) :
    (afterBlockComment cs).length ≤ cs.length := by
  fun_induction afterBlockComment cs with
  | case1 cs => simp only [List.length_cons]; omega
  | case2 c cs _ ih => exact Nat.le_succ_of_le ih
  | case3 => exact Nat.le_refl _

theorem length_comment?_le {c : Char} {cs rest : List Char} (h : comment? c cs = some rest) :
    rest.length ≤ cs.length := by
  unfold comment? at h
  split at h
  · split at h
    · obtain rfl := Option.some.inj h
      exact Nat.le_succ_of_le (Decimal.length_dropWhile_le _ _)
    · obtain rfl := Option.some.inj h
      exact Nat.le_succ_of_le (length_afterBlockComment_le _)
    · contradiction
  · contradiction

/-! ### Punctuation, numbers and names -/

/-- The punctuation mark that a character is. -/
def punctuation? : Char → Option Token
  | '(' => some .openParen
  | ')' => some .closeParen
  | '[' => some .openBracket
  | ']' => some .closeBracket
  | '{' => some .openBrace
  | '}' => some .closeBrace
  | ',' => some .comma
  | '=' => some .equals
  | ';' => some .semicolon
  | '-' => some .minus
  | _ => none

/-- A number starts with a digit, or with a point before a digit. -/
def startsNumber (c : Char) (cs : List Char) : Bool :=
  c.isDigit || (c == '.' && (cs.head?.any Char.isDigit))

/-- A name starts with a letter, `_` or `$`. -/
def startsWord (c : Char) : Bool := c == '$' || c == '_' || c.isAlpha

/-- A name goes on with letters, digits and `_`. -/
def continuesWord (c : Char) : Bool := c == '_' || c.isAlphanum

/-- The token that starts with `c`, if `c` does not start white space or a comment, and the text
after what was taken. -/
def lexeme (c : Char) (cs : List Char) : Option Token × List Char :=
  if isBlank c then (none, cs)
  else match comment? c cs with
  | some rest => (none, rest)
  | none =>
    match punctuation? c with
    | some token => (some token, cs)
    | none =>
      if startsNumber c cs then
        let (value, rest) := Decimal.scan (c :: cs)
        (some (value.elim .other .number), rest)
      else if startsWord c then
        (some (.word (String.ofList (c :: cs.takeWhile continuesWord))), cs.dropWhile continuesWord)
      else (some .other, cs)

theorem length_scan_le_of_startsNumber {c : Char} {cs : List Char} (h : startsNumber c cs) :
    (Decimal.scan (c :: cs)).2.length ≤ cs.length := by
  have hfraction : (Decimal.scanFraction ((c :: cs).dropWhile Char.isDigit)).2.length
      ≤ cs.length := by
    by_cases hc : c.isDigit
    · rw [List.dropWhile_cons_of_pos hc]
      exact Nat.le_trans (Decimal.length_scanFraction_le _) (Decimal.length_dropWhile_le _ _)
    · rw [List.dropWhile_cons_of_neg hc]
      simp only [startsNumber, hc, Bool.false_or, Bool.and_eq_true, beq_iff_eq] at h
      obtain ⟨rfl, -⟩ := h
      exact Decimal.length_dropWhile_le _ _
  exact Nat.le_trans (Decimal.length_scanExponent_le _) hfraction

/-- The text after a token is shorter than the text at its start. -/
theorem length_lexeme_le (c : Char) (cs : List Char) : (lexeme c cs).2.length ≤ cs.length := by
  unfold lexeme
  split
  · exact Nat.le_refl _
  · split
    · next h => exact length_comment?_le h
    · split
      · exact Nat.le_refl _
      · split
        · next h => exact length_scan_le_of_startsNumber h
        · split
          · exact Decimal.length_dropWhile_le _ _
          · exact Nat.le_refl _

/-! ### The tokens of a text -/

/-- The tokens of a text after the tokens `found`, the last of which comes first. -/
def tokenizeFrom (found : List Token) : List Char → List Token
  | [] => found.reverse
  | c :: cs =>
    let next := lexeme c cs
    tokenizeFrom (next.1.toList ++ found) next.2
termination_by cs => cs.length
decreasing_by exact Nat.lt_succ_of_le (length_lexeme_le c cs)

/-- The tokens of a text in order. -/
def tokenize (cs : List Char) : List Token := tokenizeFrom [] cs

@[simp] theorem tokenizeFrom_nil (found : List Token) : tokenizeFrom found [] = found.reverse := by
  rw [tokenizeFrom]

theorem tokenizeFrom_cons (found : List Token) (c : Char) (cs : List Char) :
    tokenizeFrom found (c :: cs) =
      tokenizeFrom ((lexeme c cs).1.toList ++ found) (lexeme c cs).2 := by
  rw [tokenizeFrom]

theorem tokenizeFrom_eq (found : List Token) (cs : List Char) :
    tokenizeFrom found cs = found.reverse ++ tokenize cs := by
  induction h : cs.length using Nat.strongRecOn generalizing found cs with
  | ind n ih =>
    cases cs with
    | nil => simp [tokenize]
    | cons c cs =>
      have hlt : (lexeme c cs).2.length < n := by
        rw [← h]; exact Nat.lt_succ_of_le (length_lexeme_le c cs)
      rw [tokenize, tokenizeFrom_cons, tokenizeFrom_cons, ih _ hlt _ _ rfl,
        ih _ hlt (_ ++ []) _ rfl]
      simp

@[simp] theorem tokenize_nil : tokenize [] = [] := tokenizeFrom_nil []

theorem tokenize_cons (c : Char) (cs : List Char) :
    tokenize (c :: cs) = (lexeme c cs).1.toList ++ tokenize (lexeme c cs).2 := by
  rw [tokenize, tokenizeFrom_cons, tokenizeFrom_eq]
  cases (lexeme c cs).1 <;> rfl

end SolidScene.Script
