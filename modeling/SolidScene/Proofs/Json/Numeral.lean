import SolidScene.Json.Reader
import SolidScene.Proofs.Decimal.Numeral

/-!
# Numerals read back from a document

The grammar of documents asks for digits on both sides of a point and for no superfluous zero in
front.  A numeral that has them (`Numeral.IsPlain`) is read, digit by digit, as it was written,
whatever follows that cannot go on with it (`readNumeral?_text`).
-/

namespace SolidScene

/-- A numeral as a document may hold it. -/
structure Numeral.IsPlain (n : Numeral) : Prop where
  whole_isDigit : ∀ c ∈ n.whole, c.isDigit
  whole_ne_nil : n.whole ≠ []
  whole_of_zero : n.whole.head? = some '0' → n.whole = ['0']
  fraction_isDigit : ∀ c ∈ n.fraction, c.isDigit

namespace Json

open Decimal (EndsNumeral)

section Read

variable {digits rest : List Char}

/-! ### Rows of digits -/

theorem readDigits?_append (hdigits : ∀ c ∈ digits, c.isDigit) (hne : digits ≠ [])
    (hrest : ∀ c ∈ rest.head?, c.isDigit = false) :
    readDigits? (digits ++ rest) = some (digits, rest) := by
  have htake : (digits ++ rest).takeWhile Char.isDigit = digits := by
    rw [takeWhile_append_of_head hrest, List.takeWhile_eq_self_iff.2 hdigits]
  have hdrop : (digits ++ rest).dropWhile Char.isDigit = rest := by
    rw [dropWhile_append_of_head hrest, List.dropWhile_eq_nil_iff.2 hdigits, List.nil_append]
  rw [readDigits?, htake, hdrop, if_neg]
  rwa [List.isEmpty_iff]

theorem readWhole?_append (hdigits : ∀ c ∈ digits, c.isDigit) (hne : digits ≠ [])
    (hzero : digits.head? = some '0' → digits = ['0'])
    (hrest : ∀ c ∈ rest.head?, c.isDigit = false) :
    readWhole? (digits ++ rest) = some (digits, rest) := by
  rw [readWhole?, readDigits?_append hdigits hne hrest]
  split
  · next h =>
    obtain ⟨rfl, -⟩ := Prod.mk.inj (Option.some.inj h)
    cases hzero rfl
  · rfl

/-! ### Fractions and exponents -/

theorem readFraction?_append (hdigits : ∀ c ∈ digits, c.isDigit)
    (hrest : ∀ c ∈ rest.head?, c.isDigit = false ∧ c ≠ '.') :
    readFraction? ((if digits.isEmpty then [] else '.' :: digits) ++ rest) =
      some (digits, rest) := by
  cases digits with
  | nil =>
    rw [List.isEmpty_nil, if_pos rfl, List.nil_append, readFraction?.eq_def]
    split
    · exact absurd rfl (hrest '.' rfl).2
    · rfl
  | cons c digits =>
    exact readDigits?_append hdigits (List.cons_ne_nil _ _) fun c hc => (hrest c hc).1

theorem readPower?_append (negative : Bool) (n : Nat)
    (hrest : ∀ c ∈ rest.head?, c.isDigit = false) :
    readPower? negative (digitsOfNat n ++ rest) =
      some (some (if negative then -(n : Int) else n), rest) := by
  rw [readPower?, readDigits?_append (fun _ => isDigit_of_mem_digitsOfNat)
    (digitsOfNat_ne_nil n) hrest, Option.map_some]
  simp only [natOfDigits_digitsOfNat]

theorem readExponent?_exponentText (e : Int) (hrest : ∀ c ∈ rest.head?, c.isDigit = false) :
    readExponent? (Numeral.exponentText e ++ rest) = some (some e, rest) := by
  rcases Int.lt_or_le e 0 with hneg | hnonneg
  · have hsign : -(e.natAbs : Int) = e := by omega
    have hread := readPower?_append true e.natAbs hrest
    rw [if_pos rfl, hsign] at hread
    rw [Numeral.exponentText, if_pos hneg]
    exact hread
  · have hsign : (e.natAbs : Int) = e := by omega
    have hread := readPower?_append false e.natAbs hrest
    rw [if_neg Bool.false_ne_true, hsign] at hread
    rw [Numeral.exponentText, if_neg (Int.not_lt.2 hnonneg)]
    exact hread

theorem readExponent?_append (exponent : Option Int) (hrest : EndsNumeral rest) :
    readExponent? ((exponent.map Numeral.exponentText).getD [] ++ rest) =
      some (exponent, rest) := by
  cases exponent with
  | none =>
    rw [Option.map_none, Option.getD_none, List.nil_append, readExponent?.eq_def]
    split
    · exact absurd rfl (hrest 'e' rfl).2.2.1
    · exact absurd rfl (hrest 'E' rfl).2.2.2
    · rfl
  | some e => exact readExponent?_exponentText e fun c hc => (hrest c hc).1

/-! ### Numerals -/

/-- What stands before the exponent ends there. -/
theorem head?_exponentText_append (exponent : Option Int) (hrest : EndsNumeral rest) :
    ∀ c ∈ ((exponent.map Numeral.exponentText).getD [] ++ rest).head?,
      c.isDigit = false ∧ c ≠ '.' := by
  cases exponent with
  | none => exact fun c hc => ⟨(hrest c hc).1, (hrest c hc).2.1⟩
  | some e =>
    rintro c hc
    obtain rfl : 'e' = c := Option.some.inj hc
    decide

/-- **A plain numeral** is read as it was written. -/
theorem readNumeral?_text {n : Numeral} (hn : n.IsPlain) (hrest : EndsNumeral rest) :
    readNumeral? (n.text ++ rest) = some (n, rest) := by
  have hexponent := head?_exponentText_append n.exponent hrest
  have hfraction : ∀ c ∈ ((if n.fraction.isEmpty then [] else '.' :: n.fraction) ++
      ((n.exponent.map Numeral.exponentText).getD [] ++ rest)).head?, c.isDigit = false := by
    cases n.fraction with
    | nil => exact fun c hc => (hexponent c hc).1
    | cons d ds =>
      rintro c hc
      obtain rfl : '.' = c := Option.some.inj hc
      decide
  rw [Numeral.text, List.append_assoc, List.append_assoc, readNumeral?,
    readWhole?_append hn.whole_isDigit hn.whole_ne_nil hn.whole_of_zero hfraction]
  change (readFraction? _).bind _ = _
  rw [readFraction?_append hn.fraction_isDigit hexponent]
  change (readExponent? _).bind _ = _
  rw [readExponent?_append n.exponent hrest]
  rfl

theorem exists_text_eq_cons {n : Numeral} (hn : n.IsPlain) :
    ∃ c cs, n.text = c :: cs ∧ c.isDigit := by
  obtain ⟨c, cs, hcs⟩ := List.exists_cons_of_ne_nil hn.whole_ne_nil
  rw [Numeral.text, hcs, List.append_assoc]
  exact ⟨c, _, rfl, hn.whole_isDigit c (hcs ▸ List.mem_cons_self)⟩

end Read

end Json

end SolidScene
