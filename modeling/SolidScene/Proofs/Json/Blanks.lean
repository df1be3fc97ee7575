import Mathlib.Data.List.DropRight
import SolidScene.Json.Printer
import SolidScene.Json.Reader

/-!
# Blanks in documents

Blanks in front of a value, an item or a member are passed over, so each is read alike from all
texts that agree after their blanks (`readValue?_congr`, `readItems?_congr`, `readMembers?_congr`).
A line break and the blanks of the line after it are such blanks (`skipSpace_newLine`).
-/

namespace SolidScene.Json

theorem skipSpace_cons {c : Char} (hc : isSpace c = false) (cs : List Char) :
    skipSpace (c :: cs) = c :: cs := by
  rw [skipSpace, List.dropWhile_cons, if_neg (by rw [hc]; exact Bool.false_ne_true)]

theorem skipSpace_blank (cs : List Char) : skipSpace (' ' :: cs) = skipSpace cs := rfl

@[simp] theorem skipSpace_newLine (level : Nat) (cs : List Char) :
    skipSpace (newLine level ++ cs) = skipSpace cs := by
  have hblanks (n : Nat) : skipSpace (List.replicate n ' ' ++ cs) = skipSpace cs := by
    induction n with
    | zero => rfl
    | succ n ih =>
      rw [List.replicate_succ, List.cons_append, skipSpace_blank, ih]
  exact hblanks (2 * level)

@[simp] theorem skipSpace_skipSpace (cs : List Char) : skipSpace (skipSpace cs) = skipSpace cs :=
  List.dropWhile_idempotent isSpace cs

/-- A value is read alike from all texts that agree after their blanks. -/
theorem readValue?_congr {cs ds : List Char} (h : skipSpace cs = skipSpace ds) (fuel : Nat) :
    readValue? fuel cs = readValue? fuel ds := by
  cases fuel with
  | zero => rfl
  | succ fuel => rw [readValue?, readValue?, h]

theorem readItems?_congr {cs ds : List Char} (h : skipSpace cs = skipSpace ds) (fuel : Nat)
    (found : List Json) : readItems? fuel found cs = readItems? fuel found ds := by
  cases fuel with
  | zero => rfl
  | succ fuel => rw [readItems?, readItems?, readValue?_congr h]

theorem readMembers?_congr {cs ds : List Char} (h : skipSpace cs = skipSpace ds) (fuel : Nat)
    (found : List (Option String × Json)) :
    readMembers? fuel found cs = readMembers? fuel found ds := by
  cases fuel with
  | zero => rfl
  | succ fuel => rw [readMembers?, readMembers?, readName?, readName?, h]

end SolidScene.Json
