import SolidScene.Proofs.Decimal.Numeral
import SolidScene.Script.Token

/-!
# What one lexeme takes

`lexeme` decides by the first character what it takes off a text.  For each kind of lexeme there
is one equation, and the classes of first characters are shown to exclude each other.
-/

namespace SolidScene.Script

open Text

/-! ### Classes of characters -/

theorem continuesWord_of_startsWord {c : Char} (h : continuesWord c) :
    startsWord c ∨ c.isDigit := by
  simp only [continuesWord, Char.isAlphanum, Bool.or_eq_true] at h
  simp only [startsWord, Bool.or_eq_true]
  rcases h with h | h | h
  · exact Or.inl (Or.inl (Or.inr h))
  · exact Or.inl (Or.inr h)
  · exact Or.inr h

/-- The characters that start a name, as code points. -/
theorem toNat_of_startsWord {c : Char} (h : startsWord c) :
    c.toNat = 36 ∨ c.toNat = 95 ∨ 65 ≤ c.toNat ∧ c.toNat ≤ 90 ∨ 97 ≤ c.toNat ∧ c.toNat ≤ 122 := by
  have halpha : c.isAlpha = (decide (c.val ≥ 'A'.val ∧ c.val ≤ 'Z'.val) ||
      c.val ≥ 'a'.val && c.val ≤ 'z'.val) := rfl
  simp only [startsWord, halpha, Bool.or_eq_true, beq_iff_eq, Bool.and_eq_true,
    decide_eq_true_eq] at h
  rcases h with (rfl | rfl) | h | h
  · exact Or.inl rfl
  · exact Or.inr (Or.inl rfl)
  · exact Or.inr (Or.inr (Or.inl h))
  · exact Or.inr (Or.inr (Or.inr h))

theorem not_isBlank_of_startsWord {c : Char} (h : startsWord c) : isBlank c = false := by
  have hrange := toNat_of_startsWord h
  simp only [isBlank, blankTable, CharTable.covers_cons, CharTable.covers_nil]
  simp only [Bool.or_false, Bool.and_eq_false_iff, Bool.or_eq_false_iff, decide_eq_false_iff_not]
  omega

theorem punctuation?_of_startsWord {c : Char} (h : startsWord c) : punctuation? c = none := by
  unfold punctuation?
  split
  all_goals first | rfl | exact absurd h (by decide)

theorem not_startsNumber_of_startsWord {c : Char} (h : startsWord c) (cs : List Char) :
    startsNumber c cs = false := by
  have hrange := toNat_of_startsWord h
  have hpoint : c ≠ '.' := by rintro rfl; exact absurd h (by decide)
  have hdigit : c.isDigit = false := by
    by_contra hdigit
    simp only [Char.isDigit, Bool.not_eq_false, Bool.and_eq_true, decide_eq_true_eq] at hdigit
    have hlo : 48 ≤ c.toNat := hdigit.1
    have hhi : c.toNat ≤ 57 := hdigit.2
    omega
  simp [startsNumber, hdigit, hpoint]

theorem isDigit_or_eq_of_startsNumber {c : Char} {cs : List Char} (h : startsNumber c cs) :
    c.isDigit ∨ c = '.' := by
  simp only [startsNumber, Bool.or_eq_true, Bool.and_eq_true, beq_iff_eq] at h
  exact h.imp_right And.left

theorem startsNumber_append {c : Char} {cs : List Char} (h : startsNumber c cs)
    (rest : List Char) : startsNumber c (cs ++ rest) := by
  cases cs with
  | nil =>
    simp only [startsNumber, List.head?_nil, Option.any_none, Bool.and_false, Bool.or_false] at h
    simp [startsNumber, h]
  | cons d cs => exact h

theorem punctuation?_of_startsNumber {c : Char} {cs : List Char} (h : startsNumber c cs) :
    punctuation? c = none := by
  have hc := isDigit_or_eq_of_startsNumber h
  unfold punctuation?
  split
  all_goals first | rfl | exact absurd hc (by decide)

theorem not_isBlank_of_startsNumber {c : Char} {cs : List Char} (h : startsNumber c cs) :
    isBlank c = false := by
  rcases isDigit_or_eq_of_startsNumber h with h | rfl
  · exact not_isBlank_of_isDigit h
  · decide

/-! ### The lexeme at the start of a text -/

theorem comment?_of_ne {c : Char} (h : c ≠ '/') (cs : List Char) : comment? c cs = none := by
  simp [comment?, h]

theorem lexeme_of_isBlank {c : Char} (h : isBlank c) (cs : List Char) :
    lexeme c cs = (none, cs) := by
  simp [lexeme, h]

theorem lexeme_lineComment (cs : List Char) :
    lexeme '/' ('/' :: cs) = (none, afterLineComment cs) := rfl

theorem lexeme_blockComment (cs : List Char) :
    lexeme '/' ('*' :: cs) = (none, afterBlockComment cs) := rfl

theorem lexeme_of_punctuation? {c : Char} {t : Token} (h : punctuation? c = some t)
    (cs : List Char) : lexeme c cs = (some t, cs) := by
  unfold punctuation? at h
  split at h <;> cases h <;> rfl

theorem lexeme_of_startsWord {c : Char} (h : startsWord c) (cs : List Char) :
    lexeme c cs =
      (some (.word (String.ofList (c :: cs.takeWhile continuesWord))),
        cs.dropWhile continuesWord) := by
  have hslash : c ≠ '/' := by rintro rfl; exact absurd h (by decide)
  simp [lexeme, not_isBlank_of_startsWord h, comment?_of_ne hslash, punctuation?_of_startsWord h,
    not_startsNumber_of_startsWord h, h]

theorem lexeme_of_startsNumber {c : Char} {cs : List Char} (h : startsNumber c cs) :
    lexeme c cs =
      (some ((Decimal.scan (c :: cs)).1.elim .other .number), (Decimal.scan (c :: cs)).2) := by
  have hslash : c ≠ '/' := by
    rintro rfl
    exact absurd (isDigit_or_eq_of_startsNumber h) (by decide)
  simp [lexeme, not_isBlank_of_startsNumber h, comment?_of_ne hslash,
    punctuation?_of_startsNumber h, h]

theorem lexeme_other {c : Char} {cs : List Char} (hblank : isBlank c = false)
    (hcomment : comment? c cs = none) (hmark : punctuation? c = none)
    (hnumber : startsNumber c cs = false) (hword : startsWord c = false) :
    lexeme c cs = (some .other, cs) := by
  simp [lexeme, hblank, hcomment, hmark, hnumber, hword]

end SolidScene.Script
