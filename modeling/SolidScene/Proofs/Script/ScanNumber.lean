import SolidScene.Proofs.Script.Scan

/-!
# The number that a row starts with

A scan takes any row of digits and points for a number.  What it reads is the longest literal with
which the row starts (`LongestLiteral`), as it is spelled (`Spells`), and there is one if and only
if a digit stands in front of the second point of the row (`longestLiteral_or`).
-/

namespace SolidScene.Script

variable {row literal rest : List Char} {d : Decimal}

/-- A literal and the decimal that it spells. -/
inductive Spells : List Char → Decimal → Prop
  | whole {whole : List Char} (hwhole : ∀ c ∈ whole, c.isDigit) :
      Spells whole ⟨natOfDigits whole, 0⟩
  | point {whole fraction : List Char} (hwhole : ∀ c ∈ whole, c.isDigit)
      (hfraction : ∀ c ∈ fraction, c.isDigit) :
      Spells (whole ++ '.' :: fraction) ⟨natOfDigits (whole ++ fraction), -fraction.length⟩

/-- The longest literal with which a row starts. -/
structure LongestLiteral (row literal : List Char) : Prop where
  isLiteral : IsLiteral literal
  starts : literal <+: row
  longest : ∀ other, IsLiteral other → other <+: row → other <+: literal

/-- A row in which a digit stands in front of the second point. -/
def StartsWithNumber (row : List Char) : Prop :=
  ∃ front c back, row = front ++ c :: back ∧ c.isDigit ∧ front.count '.' ≤ 1

theorem LongestLiteral.unique {other : List Char} (h : LongestLiteral row literal)
    (h' : LongestLiteral row other) : literal = other :=
  (h'.longest literal h.isLiteral h.starts).eq_of_length_le
    (h.longest other h'.isLiteral h'.starts).length_le

theorem Spells.scan_eq (h : Spells literal d) (hliteral : IsLiteral literal) :
    Decimal.scan literal = (some d, []) := by
  cases h with
  | whole hwhole => exact Decimal.scan_digits hwhole hliteral.ne_nil
  | @point whole fraction hwhole hfraction =>
    refine Decimal.scan_digits_point hwhole hfraction fun hnil => ?_
    obtain ⟨rfl, rfl⟩ := List.append_eq_nil_iff.1 hnil
    obtain ⟨c, hc, hdigit⟩ := hliteral.digit
    rw [List.mem_singleton.1 hc] at hdigit
    exact absurd hdigit (by decide)

theorem StartsWithNumber.of_literal (hliteral : IsLiteral literal) (h : literal <+: row) :
    StartsWithNumber row := by
  obtain ⟨rest, rfl⟩ := h
  obtain ⟨c, hc, hdigit⟩ := hliteral.digit
  obtain ⟨front, back, rfl⟩ := List.append_of_mem hc
  refine ⟨front, c, back ++ rest, by simp, hdigit, ?_⟩
  have hpoint := hliteral.point
  rw [List.count_append] at hpoint
  exact Nat.le_trans (Nat.le_add_right _ _) hpoint

/-- A literal goes on as long as it can where the row ends after it or goes on with a second
point. -/
theorem LongestLiteral.of_append (hliteral : IsLiteral literal)
    (hrest : rest = [] ∨ '.' ∈ literal ∧ rest.head? = some '.') :
    LongestLiteral (literal ++ rest) literal := by
  refine ⟨hliteral, List.prefix_append literal rest, fun other hother hstarts => ?_⟩
  obtain hshorter | ⟨more, rfl⟩ :=
    List.prefix_or_prefix_of_prefix hstarts (List.prefix_append literal rest)
  · exact hshorter
  · cases more with
    | nil => exact (List.append_nil literal).symm ▸ List.prefix_rfl
    | cons c more =>
      -- A longer literal would have a second point.
      obtain ⟨back, hback⟩ := hstarts
      rw [List.append_assoc, List.append_cancel_left_eq] at hback
      obtain rfl | ⟨hpoint, hhead⟩ := hrest
      · cases hback
      · rw [← hback] at hhead
        obtain rfl := Option.some.inj hhead
        have hone := List.count_pos_iff.2 hpoint
        have hmost := hother.point
        rw [List.count_append, List.count_cons_self] at hmost
        omega

theorem dropWhile_isDigit (h : ∀ c ∈ row, isFigure c) :
    row.dropWhile Char.isDigit = [] ∨ (row.dropWhile Char.isDigit).head? = some '.' := by
  cases hdrop : row.dropWhile Char.isDigit with
  | nil => exact Or.inl rfl
  | cons c cs =>
    have hdigit : c.isDigit = false := by
      have := List.head?_dropWhile_not Char.isDigit row
      rw [hdrop] at this
      simpa using this
    have hfigure : isFigure c :=
      h c ((List.dropWhile_suffix Char.isDigit).subset (hdrop ▸ List.mem_cons_self))
    by_cases hpoint : c = '.'
    · exact Or.inr (congrArg some hpoint)
    · rw [isDigit_of_isFigure hfigure hpoint] at hdigit
      cases hdigit

/-- A row of digits and points is a row of digits, or two such rows with a point between them in
front of nothing or another point. -/
theorem digits_or_of_isFigure (h : ∀ c ∈ row, isFigure c) :
    (∀ c ∈ row, c.isDigit) ∨
      ∃ whole fraction rest, row = whole ++ '.' :: fraction ++ rest ∧ (∀ c ∈ whole, c.isDigit) ∧
        (∀ c ∈ fraction, c.isDigit) ∧ (rest = [] ∨ rest.head? = some '.') := by
  have hrow := List.takeWhile_append_dropWhile (p := Char.isDigit) (l := row)
  obtain hdrop | hdrop := dropWhile_isDigit h
  · exact Or.inl (List.dropWhile_eq_nil_iff.1 hdrop)
  · obtain ⟨after, hafter⟩ := List.head?_eq_some_iff.1 hdrop
    have hfigures : ∀ c ∈ after, isFigure c := fun c hc =>
      h c ((List.dropWhile_suffix Char.isDigit).subset (hafter ▸ List.mem_cons_of_mem _ hc))
    refine Or.inr ⟨row.takeWhile Char.isDigit, after.takeWhile Char.isDigit,
      after.dropWhile Char.isDigit, ?_, fun c hc => List.mem_takeWhile_imp hc,
      fun c hc => List.mem_takeWhile_imp hc, dropWhile_isDigit hfigures⟩
    rw [List.append_assoc, List.cons_append, List.takeWhile_append_dropWhile, ← hafter, hrow]

/-- Reading a row stops at its second point. -/
theorem scan_fst_append {whole fraction : List Char} (hwhole : ∀ c ∈ whole, c.isDigit)
    (hfraction : ∀ c ∈ fraction, c.isDigit) (hrest : rest = [] ∨ rest.head? = some '.') :
    (Decimal.scan (whole ++ '.' :: fraction ++ rest)).1 =
      if whole ++ fraction = [] then none
      else some ⟨natOfDigits (whole ++ fraction), -fraction.length⟩ := by
  have hpoint : ¬ ('.' : Char).isDigit := by decide
  have hstop : ∀ c ∈ rest.head?, c.isDigit = false := by
    rintro c hc
    obtain rfl | hhead := hrest
    · cases hc
    · rw [hhead] at hc
      obtain rfl := Option.some.inj hc
      rfl
  have htake : (fraction ++ rest).takeWhile Char.isDigit = fraction := by
    rw [takeWhile_append_of_head hstop, List.takeWhile_eq_self_iff.2 hfraction]
  have hdrop : (fraction ++ rest).dropWhile Char.isDigit = rest := by
    rw [dropWhile_append_of_head hstop, List.dropWhile_eq_nil_iff.2 hfraction, List.nil_append]
  have hexponent : Decimal.scanExponent rest = (some 0, rest) := by
    obtain rfl | hhead := hrest
    · rfl
    · obtain ⟨more, rfl⟩ := List.head?_eq_some_iff.1 hhead
      rfl
  have hempty : (whole.isEmpty && fraction.isEmpty) = decide (whole ++ fraction = []) := by
    cases whole <;> cases fraction <;> rfl
  simp only [Decimal.scan, List.append_assoc, List.cons_append,
    List.takeWhile_append_of_pos hwhole, List.dropWhile_append_of_pos hwhole,
    List.takeWhile_cons_of_neg hpoint, List.dropWhile_cons_of_neg hpoint, List.append_nil,
    Decimal.scanFraction, htake, hdrop, hexponent, hempty, decide_eq_true_eq]
  simp

theorem isLiteral_digits (hdigits : ∀ c ∈ row, c.isDigit) (hne : row ≠ []) : IsLiteral row := by
  have hpoint : '.' ∉ row := fun hmem => absurd (hdigits _ hmem) (by decide)
  obtain ⟨c, hc⟩ := List.exists_mem_of_ne_nil row hne
  refine ⟨fun c hc => by rw [isFigure, hdigits c hc, Bool.true_or], ?_, c, hc, hdigits c hc⟩
  rw [List.count_eq_zero.2 hpoint]
  exact Nat.zero_le 1

theorem isLiteral_point {whole fraction : List Char} (hwhole : ∀ c ∈ whole, c.isDigit)
    (hfraction : ∀ c ∈ fraction, c.isDigit) (hne : whole ++ fraction ≠ []) :
    IsLiteral (whole ++ '.' :: fraction) := by
  have hdigits := isLiteral_digits (List.forall_mem_append.2 ⟨hwhole, hfraction⟩) hne
  have hpoint : '.' ∉ whole ++ fraction := fun hmem =>
    absurd (List.forall_mem_append.2 ⟨hwhole, hfraction⟩ _ hmem) (by decide)
  have hperm : (whole ++ '.' :: fraction).Perm ('.' :: (whole ++ fraction)) :=
    List.perm_middle
  refine ⟨fun c hc => ?_, ?_, ?_⟩
  · rcases List.mem_cons.1 (hperm.mem_iff.1 hc) with rfl | hc
    · rfl
    · exact hdigits.figures c hc
  · rw [hperm.count_eq, List.count_cons_self, List.count_eq_zero.2 hpoint]
  · obtain ⟨c, hc, hdigit⟩ := hdigits.digit
    exact ⟨c, hperm.mem_iff.2 (List.mem_cons_of_mem _ hc), hdigit⟩

/-- A row of digits and points starts with a longest literal and spells what that spells, or no
digit stands in front of its second point and it spells nothing. -/
theorem longestLiteral_or (h : ∀ c ∈ row, isFigure c) :
    (∃ literal d, LongestLiteral row literal ∧ Spells literal d ∧
        (Decimal.scan row).1 = some d) ∨
      ¬ StartsWithNumber row ∧ (Decimal.scan row).1 = none := by
  obtain hdigits | ⟨whole, fraction, rest, rfl, hwhole, hfraction, hrest⟩ := digits_or_of_isFigure h
  · cases row with
    | nil =>
      refine Or.inr ⟨?_, rfl⟩
      rintro ⟨front, c, back, hrow, -⟩
      cases front <;> cases hrow
    | cons c row =>
      have hliteral := isLiteral_digits hdigits (List.cons_ne_nil c row)
      have hlongest : LongestLiteral (c :: row ++ []) (c :: row) :=
        .of_append hliteral (Or.inl rfl)
      rw [List.append_nil] at hlongest
      refine Or.inl ⟨c :: row, _, hlongest, .whole hdigits, ?_⟩
      rw [Decimal.scan_digits hdigits (List.cons_ne_nil c row)]
  · have hscan := scan_fst_append hwhole hfraction hrest
    by_cases hnil : whole ++ fraction = []
    · obtain ⟨rfl, rfl⟩ := List.append_eq_nil_iff.1 hnil
      refine Or.inr ⟨?_, by rw [hscan, if_pos hnil]⟩
      rintro ⟨front, c, back, hrow, hdigit, hcount⟩
      rw [List.nil_append, List.cons_append, List.nil_append] at hrow
      -- What stands in front of the second point is the first one.
      rcases front with _ | ⟨a, _ | ⟨b, front⟩⟩
      · obtain ⟨rfl, -⟩ := List.cons.inj hrow
        exact absurd hdigit (by decide)
      · obtain ⟨-, rfl⟩ := List.cons.inj hrow
        obtain hrest | hrest := hrest
        · cases hrest
        · obtain rfl := Option.some.inj hrest
          exact absurd hdigit (by decide)
      · obtain ⟨rfl, rfl⟩ := List.cons.inj hrow
        obtain hrest | hrest := hrest
        · cases hrest
        · obtain rfl := Option.some.inj hrest
          rw [List.count_cons_self, List.count_cons_self] at hcount
          omega
    · rw [if_neg hnil] at hscan
      refine Or.inl ⟨whole ++ '.' :: fraction, _, .of_append ?_ ?_, .point hwhole hfraction, hscan⟩
      · exact isLiteral_point hwhole hfraction hnil
      · exact hrest.imp_right fun hhead => ⟨by simp, hhead⟩

end SolidScene.Script
