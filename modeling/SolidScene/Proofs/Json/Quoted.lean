import SolidScene.Json.Printer
import SolidScene.Json.Reader

/-!
# Quoted texts read back

A text is read as a row of code units, which are put together to characters afterwards.  Each
character of a quoted text gives one unit, its own number, whether it stands for itself or is
escaped (`readUnits?_escapeChar`).  No character is half of a surrogate pair, so the units are the
characters again (`decodeUnits?_map_toNat`), and a quoted text is read as what was quoted
(`readText?_quote`).
-/

namespace SolidScene.Json

/-! ### From characters to units -/

/-- The escape of a control character spells its number. -/
theorem hexUnit?_escapeControl :
    ∀ n < 32, hexUnit? '0' '0' (Nat.digitChar (n / 16)) (Nat.digitChar (n % 16)) = some n := by
  decide

theorem readUnits?_escapeControl (found : List Nat) {c : Char} (hc : c < ' ') (rest : List Char) :
    readUnits? found (escapeControl c ++ rest) = readUnits? (c.toNat :: found) rest := by
  have hunit := hexUnit?_escapeControl c.toNat hc
  simp only [escapeControl, List.cons_append, List.nil_append, readUnits?, hunit]

/-- A character that stands for itself. -/
theorem readUnits?_self (found : List Nat) {c : Char} (hquote : c ≠ '"') (hescape : c ≠ '\\')
    (hc : ¬ c < ' ') (rest : List Char) :
    readUnits? found (c :: rest) = readUnits? (c.toNat :: found) rest := by
  rw [readUnits?.eq_def]
  split
  · contradiction
  · next h => exact absurd (List.cons.inj h).1 hquote
  · next h => exact absurd (List.cons.inj h).1 hescape
  · next h => exact absurd (List.cons.inj h).1 hescape
  · next h =>
    obtain ⟨rfl, rfl⟩ := List.cons.inj h
    rw [if_neg hc]

/-- Each character of a quoted text is read as one unit. -/
theorem readUnits?_escapeChar (found : List Nat) (c : Char) (rest : List Char) :
    readUnits? found (escapeChar c ++ rest) = readUnits? (c.toNat :: found) rest := by
  unfold escapeChar
  split
  · next h => rcases h with rfl | rfl <;> rfl
  split
  · next h => subst h; rfl
  split
  · next h => subst h; rfl
  split
  · next h => subst h; rfl
  split
  · next h => subst h; rfl
  split
  · next h => subst h; rfl
  split
  · next hcontrol => exact readUnits?_escapeControl found hcontrol rest
  · next hspecial _ _ _ _ _ hcontrol =>
    obtain ⟨hquote, hescape⟩ := not_or.1 hspecial
    exact readUnits?_self found hquote hescape hcontrol rest

theorem readUnits?_flatMap_escapeChar (cs rest : List Char) (found : List Nat) :
    readUnits? found (cs.flatMap escapeChar ++ '"' :: rest) =
      some (found.reverse ++ cs.map Char.toNat, rest) := by
  induction cs generalizing found with
  | nil => simp [readUnits?]
  | cons c cs ih =>
    rw [List.flatMap_cons, List.append_assoc, readUnits?_escapeChar, ih]
    simp

/-! ### From units to characters -/

/-- No character is half of a surrogate pair. -/
theorem isHalf_toNat (c : Char) : isHighHalf c.toNat = false ∧ isLowHalf c.toNat = false := by
  have hvalid : c.toNat < 0xD800 ∨ 0xDFFF < c.toNat ∧ c.toNat < 0x110000 := c.valid
  simp only [isHighHalf, isLowHalf, Bool.and_eq_false_imp, decide_eq_true_iff,
    decide_eq_false_iff_not]
  omega

theorem decodeUnits?_cons_toNat (c : Char) (units : List Nat) :
    decodeUnits? (c.toNat :: units) = (decodeUnits? units).map (c :: ·) := by
  obtain ⟨hhigh, hlow⟩ := isHalf_toNat c
  cases units with
  | nil => simp [decodeUnits?, hhigh, hlow]
  | cons unit units => simp [decodeUnits?, hhigh, hlow]

theorem decodeUnits?_map_toNat (cs : List Char) : decodeUnits? (cs.map Char.toNat) = some cs := by
  induction cs with
  | nil => rfl
  | cons c cs ih => rw [List.map_cons, decodeUnits?_cons_toNat, ih, Option.map_some]

/-! ### Quoted texts -/

/-- **A quoted text** is read as the text that was quoted, and what follows it is left. -/
theorem readText?_quote (s : String) (rest : List Char) :
    readText? (s.toList.flatMap escapeChar ++ '"' :: rest) = some (some s, rest) := by
  rw [readText?, readUnits?_flatMap_escapeChar]
  simp [decodeUnits?_map_toNat]

end SolidScene.Json
