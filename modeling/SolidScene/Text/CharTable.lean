/-!
# Tables of characters

A class of characters is written down as the ascending list of its ranges of code
points, both ends included.  `CharTable.covers` decides membership and stops at the first
range that starts above the character.
-/

namespace SolidScene.Text

/-- Ascending, disjoint ranges of code points, both ends included. -/
abbrev CharTable := List (Nat × Nat)

namespace CharTable

/-- Whether code point `n` lies in one of the ranges. -/
def covers : CharTable → Nat → Bool
  | [], _ => false
  | (first, last) :: rest, n => if n < first then false else n ≤ last || covers rest n

@[simp] theorem covers_nil (n : Nat) : covers [] n = false := rfl

theorem covers_cons (first last : Nat) (rest : CharTable) (n : Nat) :
    covers ((first, last) :: rest) n = (first ≤ n && (n ≤ last || covers rest n)) := by
  by_cases h : n < first
  · simp [covers, h, Nat.not_le.2 h]
  · simp [covers, h, Nat.not_lt.1 h]

end CharTable

end SolidScene.Text
