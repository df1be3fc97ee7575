import SolidScene.Proofs.Decimal.Numeral
import SolidScene.Script.Scan

/-!
# What a scan finds

A scan tries a pattern at each place of a text.  `Yields kind text found` says that the places of
`text` give the solids `found`, whatever text follows it, so the yields of a text are put together
from those of its parts.

* A text that avoids the keyword of a kind, in the sense that no place of it could be the start of
  the keyword, yields nothing.
* `BareCall kind row text` lists, for each kind, the texts that its pattern is meant for, without
  any reference to patterns: the names and marks of a call with white space between them, the first
  number being `row`.  `yields_bareCall` says that such a text yields one solid of its kind, whose
  length is what `row` says, and none of another.
* `PatternCall kind row text` lists the texts that the pattern takes, which also takes rows of
  digits and points that are no numbers.
-/

namespace SolidScene.Script

open Text

/-! ### Place by place -/

theorem scanFrom_eq (kind : Kind) (found : List Solid) (text : List Char) :
    scanFrom kind found text = found.reverse ++ scanKind kind text := by
  induction text generalizing found with
  | nil => simp [scanKind, scanFrom]
  | cons c cs ih =>
    rw [scanKind, scanFrom, scanFrom, ih, ih (_ ++ [])]
    simp

@[simp] theorem scanKind_nil (kind : Kind) : scanKind kind [] = [] := rfl

theorem scanKind_cons (kind : Kind) (c : Char) (cs : List Char) :
    scanKind kind (c :: cs) = (solidAt? kind (c :: cs)).toList ++ scanKind kind cs := by
  rw [scanKind, scanFrom, scanFrom_eq]
  cases solidAt? kind (c :: cs) <;> rfl

/-- The places of a text give these solids, whatever follows the text. -/
def Yields (kind : Kind) (text : List Char) (found : List Solid) : Prop :=
  ∀ rest, scanKind kind (text ++ rest) = found ++ scanKind kind rest

section Yields

variable {kind : Kind} {text more : List Char} {found others : List Solid}

theorem yields_nil : Yields kind [] [] := fun _ => rfl

theorem Yields.append (h : Yields kind text found) (h' : Yields kind more others) :
    Yields kind (text ++ more) (found ++ others) := by
  intro rest
  rw [List.append_assoc, h, h', List.append_assoc]

theorem Yields.append_nothing (h : Yields kind text found) (h' : Yields kind more []) :
    Yields kind (text ++ more) found := by
  simpa using h.append h'

theorem Yields.nothing_append (h : Yields kind text []) (h' : Yields kind more others) :
    Yields kind (text ++ more) others := h.append h'

theorem Yields.scanKind_eq (h : Yields kind text found) : scanKind kind text = found := by
  simpa using h []

end Yields

/-! ### Texts without a keyword -/

/-- The word with which the calls of a kind start. -/
def keyword : Kind → List Char
  | .box => "cube".toList
  | .sphere => "sphere".toList
  | .cylinder => "cylinder".toList

/-- Whether two texts differ at a place that both of them have. -/
def clashes : List Char → List Char → Bool
  | c :: cs, d :: ds => c != d || clashes cs ds
  | _, _ => false

/-- Whether a word can start at no place of a text, whatever follows. -/
def avoids (word : List Char) : List Char → Bool
  | [] => true
  | c :: cs => clashes word (c :: cs) && avoids word cs

theorem after?_of_clashes {start text : List Char} (h : clashes start text) (rest : List Char) :
    after? start (text ++ rest) = none := by
  fun_induction clashes start text with
  | case1 c cs d ds ih =>
    rw [List.cons_append, after?]
    split
    · next heq => exact ih (by simpa [heq] using h)
    · rfl
  | case2 => cases h

theorem clashes_append {start text : List Char} (h : clashes start text) (rest : List Char) :
    clashes start (text ++ rest) := by
  fun_induction clashes start text with
  | case1 c cs d ds ih =>
    rw [List.cons_append, clashes]
    rw [Bool.or_eq_true] at h ⊢
    exact h.imp_right ih
  | case2 => cases h

theorem avoids_append {word text more : List Char} (h : avoids word text) (h' : avoids word more) :
    avoids word (text ++ more) := by
  induction text with
  | nil => exact h'
  | cons c cs ih =>
    rw [avoids, Bool.and_eq_true] at h
    rw [List.cons_append, avoids, Bool.and_eq_true, ← List.cons_append]
    exact ⟨clashes_append h.1 more, ih h.2⟩

theorem avoids_flatten {word : List Char} {pieces : List (List Char)}
    (h : ∀ piece ∈ pieces, avoids word piece) : avoids word pieces.flatten := by
  induction pieces with
  | nil => rfl
  | cons piece rest ih =>
    obtain ⟨hpiece, hrest⟩ := List.forall_mem_cons.1 h
    exact avoids_append hpiece (ih hrest)

/-- A word is avoided where its first letter does not occur. -/
theorem avoids_of_forall_ne {first : Char} {word text : List Char} (h : ∀ c ∈ text, c ≠ first) :
    avoids (first :: word) text := by
  induction text with
  | nil => rfl
  | cons c cs ih =>
    obtain ⟨hc, hcs⟩ := List.forall_mem_cons.1 h
    simp [avoids, clashes, hc.symm, ih hcs]

/-- No keyword starts in a text in which the first letters of the keywords do not occur. -/
theorem avoids_of_not_mem {text : List Char} (hc : 'c' ∉ text) (hs : 's' ∉ text) (kind : Kind) :
    avoids (keyword kind) text := by
  cases kind with
  | box => exact avoids_of_forall_ne fun _ h => ne_of_mem_of_not_mem h hc
  | sphere => exact avoids_of_forall_ne fun _ h => ne_of_mem_of_not_mem h hs
  | cylinder => exact avoids_of_forall_ne fun _ h => ne_of_mem_of_not_mem h hc

/-! ### Texts that start with a keyword -/

/-- What is asked of the text after the keyword of a kind. -/
def argumentPattern : Kind → Pattern
  | .box => [.blanks, .exactly ['('], .blanks, .exactly ['['], .figures, .exactly [','], .blanks,
      .figures, .exactly [','], .blanks, .figures, .exactly [']'], .blanks, .exactly [')']]
  | .sphere => [.blanks, .exactly ['('], .blanks, .exactly ['r'], .blanks, .exactly ['='], .blanks,
      .figures, .blanks, .exactly [')']]
  | .cylinder => [.blanks, .exactly ['('], .blanks, .exactly ['r'], .blanks, .exactly ['='],
      .blanks, .figures, .exactly [','], .blanks, .exactly ['h'], .blanks, .exactly ['='], .blanks,
      .figures, .blanks, .exactly [')']]

theorem patternOf_eq (kind : Kind) :
    patternOf kind = .exactly (keyword kind) :: argumentPattern kind := by
  cases kind <;> rfl

/-- The solid that the rows of figures of a call give. -/
def solidOfRows? (kind : Kind) (rows : List (List Char)) : Option Solid :=
  (rows.head?.bind fun row => (Decimal.scan row).1).map fun length =>
    ⟨kind, scaleOfLength kind length.toFloat⟩

theorem after?_append (start rest : List Char) : after? start (start ++ rest) = some rest := by
  induction start with
  | nil => rfl
  | cons c cs ih => simpa [after?] using ih

theorem solidAt?_keyword (kind : Kind) (cs : List Char) :
    solidAt? kind (keyword kind ++ cs) =
      ((argumentPattern kind).match? cs).bind (solidOfRows? kind) := by
  rw [solidAt?, patternOf_eq, Pattern.match?, after?_append]
  rfl

theorem solidAt?_of_clashes {kind : Kind} {text : List Char} (h : clashes (keyword kind) text)
    (rest : List Char) : solidAt? kind (text ++ rest) = none := by
  rw [solidAt?, patternOf_eq, Pattern.match?, after?_of_clashes h]
  rfl

theorem yields_of_avoids {kind : Kind} {text : List Char} (h : avoids (keyword kind) text) :
    Yields kind text [] := by
  intro rest
  induction text with
  | nil => rfl
  | cons c cs ih =>
    rw [avoids, Bool.and_eq_true] at h
    have hnone := solidAt?_of_clashes h.1 rest
    rw [List.cons_append] at hnone ⊢
    rw [scanKind_cons, hnone, ih h.2]
    rfl

/-- A text that has the keyword at its start only yields what the pattern makes of its start. -/
theorem yields_keyword {kind : Kind} {cs : List Char} {found : Option Solid}
    (hstart : ∀ rest, ((argumentPattern kind).match? (cs ++ rest)).bind (solidOfRows? kind) = found)
    (hcs : avoids (keyword kind) cs) : Yields kind (keyword kind ++ cs) found.toList := by
  obtain ⟨c, word, hword, havoids⟩ :
      ∃ c word, keyword kind = c :: word ∧ avoids (keyword kind) word := by
    cases kind <;> exact ⟨_, _, rfl, by decide⟩
  intro rest
  have hplace := solidAt?_keyword kind (cs ++ rest)
  have hinside := yields_of_avoids (avoids_append havoids hcs) rest
  rw [hstart] at hplace
  rw [hword] at hplace ⊢
  rw [List.append_assoc, List.cons_append, scanKind_cons, ← List.cons_append, hplace,
    ← List.append_assoc, hinside]
  rfl

/-- A call yields what the pattern of its kind makes of its arguments, and nothing of another
kind. -/
theorem yields_call {kind : Kind} {arguments : List Char} {found : Option Solid}
    (havoids : ∀ other, avoids (keyword other) arguments)
    (hfound : ∀ rest,
      ((argumentPattern kind).match? (arguments ++ rest)).bind (solidOfRows? kind) = found)
    (other : Kind) :
    Yields other (keyword kind ++ arguments) (if kind = other then found.toList else []) := by
  by_cases hkind : kind = other
  · subst hkind
    rw [if_pos rfl]
    exact yields_keyword hfound (havoids kind)
  · rw [if_neg hkind]
    refine yields_of_avoids (avoids_append ?_ (havoids other))
    cases kind <;> cases other <;> first | contradiction | decide

/-- A call whose arguments the pattern of its kind does not take yields nothing. -/
theorem yields_of_match?_eq_none {kind : Kind} {arguments : List Char}
    (havoids : ∀ other, avoids (keyword other) arguments)
    (hnone : ∀ rest, (argumentPattern kind).match? (arguments ++ rest) = none) (other : Kind) :
    Yields other (keyword kind ++ arguments) [] := by
  have hfound (rest : List Char) :
      ((argumentPattern kind).match? (arguments ++ rest)).bind (solidOfRows? kind) = none := by
    rw [hnone, Option.bind_none]
  simpa using yields_call havoids hfound other

/-! ### Literals and white space -/

/-- White space only. -/
def AllBlank (text : List Char) : Prop := ∀ c ∈ text, isBlank c

instance (text : List Char) : Decidable (AllBlank text) :=
  decidable_of_iff (text.all isBlank) List.all_eq_true

theorem allBlank_nil : AllBlank [] := fun _ h => absurd h List.not_mem_nil

/-- Digits and points, at least one of them. -/
structure IsRun (row : List Char) : Prop where
  figures : ∀ c ∈ row, isFigure c
  ne_nil : row ≠ []

/-- An unsigned decimal literal: digits, at least one, with at most one point among them. -/
structure IsLiteral (row : List Char) : Prop where
  figures : ∀ c ∈ row, isFigure c
  point : row.count '.' ≤ 1
  digit : ∃ c ∈ row, c.isDigit

instance (row : List Char) : Decidable (IsLiteral row) :=
  decidable_of_iff (row.all isFigure ∧ row.count '.' ≤ 1 ∧ row.any Char.isDigit)
    ⟨fun ⟨hfigures, hpoint, hdigit⟩ =>
        ⟨List.all_eq_true.1 hfigures, hpoint, List.any_eq_true.1 hdigit⟩,
      fun h => ⟨List.all_eq_true.2 h.figures, h.point, List.any_eq_true.2 h.digit⟩⟩

theorem isDigit_of_isFigure {c : Char} (h : isFigure c) (hpoint : c ≠ '.') : c.isDigit := by
  simpa [isFigure, hpoint] using h

theorem not_isBlank_of_isFigure {c : Char} (h : isFigure c) : isBlank c = false := by
  by_cases hpoint : c = '.'
  · subst hpoint
    decide
  · exact not_isBlank_of_isDigit (isDigit_of_isFigure h hpoint)

theorem IsLiteral.ne_nil {row : List Char} (h : IsLiteral row) : row ≠ [] := by
  obtain ⟨c, hc, -⟩ := h.digit
  exact List.ne_nil_of_mem hc

theorem IsLiteral.isRun {row : List Char} (h : IsLiteral row) : IsRun row := ⟨h.figures, h.ne_nil⟩

/-- A literal is a row of digits, or two such rows with a point between them. -/
theorem IsLiteral.eq_digits_or {row : List Char} (h : IsLiteral row) :
    (∀ c ∈ row, c.isDigit) ∨
      ∃ whole fraction, row = whole ++ '.' :: fraction ∧ (∀ c ∈ whole, c.isDigit) ∧
        (∀ c ∈ fraction, c.isDigit) ∧ whole ++ fraction ≠ [] := by
  by_cases hmem : '.' ∈ row
  · right
    obtain ⟨whole, fraction, rfl⟩ := List.append_of_mem hmem
    obtain ⟨hfigures, hpoint, hdigit⟩ := h
    have hwhole : '.' ∉ whole := by
      rw [← List.count_eq_zero]
      simp only [List.count_append, List.count_cons_self] at hpoint
      omega
    have hfraction : '.' ∉ fraction := by
      rw [← List.count_eq_zero]
      simp only [List.count_append, List.count_cons_self] at hpoint
      omega
    refine ⟨whole, fraction, rfl, fun c hc => ?_, fun c hc => ?_, fun hnil => ?_⟩
    · exact isDigit_of_isFigure (hfigures c (by simp [hc])) (ne_of_mem_of_not_mem hc hwhole)
    · exact isDigit_of_isFigure (hfigures c (by simp [hc])) (ne_of_mem_of_not_mem hc hfraction)
    · obtain ⟨rfl, rfl⟩ := List.append_eq_nil_iff.1 hnil
      obtain ⟨c, hc, hdigit⟩ := hdigit
      rw [List.mem_singleton.1 hc] at hdigit
      exact absurd hdigit (by decide)
  · left
    intro c hc
    exact isDigit_of_isFigure (h.figures c hc) (ne_of_mem_of_not_mem hc hmem)

/-- A literal is a numeral from end to end. -/
theorem IsLiteral.scan_eq {row : List Char} (h : IsLiteral row) :
    ∃ d, Decimal.scan row = (some d, []) := by
  rcases h.eq_digits_or with hdigits | ⟨whole, fraction, rfl, hwhole, hfraction, hne⟩
  · exact ⟨_, Decimal.scan_digits hdigits h.ne_nil⟩
  · exact ⟨_, Decimal.scan_digits_point hwhole hfraction hne⟩

theorem avoids_of_allBlank {text : List Char} (h : AllBlank text) (kind : Kind) :
    avoids (keyword kind) text := by
  refine avoids_of_not_mem (fun hc => ?_) (fun hs => ?_) kind
  · exact absurd (h _ hc) (by decide)
  · exact absurd (h _ hs) (by decide)

theorem avoids_of_isRun {row : List Char} (h : IsRun row) (kind : Kind) :
    avoids (keyword kind) row := by
  refine avoids_of_not_mem (fun hc => ?_) (fun hs => ?_) kind
  · exact absurd (h.figures _ hc) (by decide)
  · exact absurd (h.figures _ hs) (by decide)

/-! ### What a pattern takes -/

section Match

variable {pattern : Pattern} {rest : List Char}

/-- A text that starts with a character outside a class. -/
theorem head?_cons_of_eq_false {p : Char → Bool} {c : Char} (h : p c = false) (cs : List Char) :
    ∀ d ∈ (c :: cs).head?, p d = false := by
  intro d hd
  obtain rfl := Option.some.inj hd
  exact h

theorem head?_run {row : List Char} (h : IsRun row) (cs : List Char) :
    ∀ d ∈ (row ++ cs).head?, isBlank d = false := by
  obtain ⟨c, row, rfl⟩ := List.exists_cons_of_ne_nil h.ne_nil
  exact head?_cons_of_eq_false (not_isBlank_of_isFigure (h.figures c List.mem_cons_self)) _

theorem head?_blanks {blanks : List Char} (h : AllBlank blanks) {c : Char} (hc : isFigure c = false)
    (cs : List Char) : ∀ d ∈ (blanks ++ c :: cs).head?, isFigure d = false := by
  cases blanks with
  | nil => exact head?_cons_of_eq_false hc cs
  | cons blank blanks =>
    refine head?_cons_of_eq_false ?_ _
    by_contra hfigure
    have hnot := not_isBlank_of_isFigure (Bool.not_eq_false _ ▸ hfigure)
    exact absurd (h blank List.mem_cons_self) (by simp [hnot])

theorem match?_exactly (c : Char) :
    Pattern.match? (.exactly [c] :: pattern) (c :: rest) = pattern.match? rest := by
  simp [Pattern.match?, after?]

theorem match?_exactly_of_ne {c d : Char} (h : c ≠ d) :
    Pattern.match? (.exactly [c] :: pattern) (d :: rest) = none := by
  simp [Pattern.match?, after?, h]

theorem match?_blanks {blanks : List Char} (h : AllBlank blanks)
    (hrest : ∀ c ∈ rest.head?, isBlank c = false) :
    Pattern.match? (.blanks :: pattern) (blanks ++ rest) = pattern.match? rest := by
  have hskip : skipBlanks (blanks ++ rest) = rest := by
    rw [skipBlanks, dropWhile_append_of_head hrest, List.dropWhile_eq_nil_iff.2 h,
      List.nil_append]
  rw [Pattern.match?, hskip]

theorem match?_figures {row : List Char} (h : IsRun row)
    (hrest : ∀ c ∈ rest.head?, isFigure c = false) :
    Pattern.match? (.figures :: pattern) (row ++ rest) =
      (pattern.match? rest).map (row :: ·) := by
  have htake : (row ++ rest).takeWhile isFigure = row := by
    rw [takeWhile_append_of_head hrest, List.takeWhile_eq_self_iff.2 h.figures]
  have hdrop : (row ++ rest).dropWhile isFigure = rest := by
    rw [dropWhile_append_of_head hrest, List.dropWhile_eq_nil_iff.2 h.figures, List.nil_append]
  rw [Pattern.match?, htake, hdrop]
  simp [h.ne_nil]

theorem match?_mark {blanks : List Char} (h : AllBlank blanks) {c : Char}
    (hc : isBlank c = false) :
    Pattern.match? (.blanks :: .exactly [c] :: pattern) (blanks ++ c :: rest) =
      pattern.match? rest := by
  rw [match?_blanks h (head?_cons_of_eq_false hc _), match?_exactly]

theorem match?_run {blanks row : List Char} (h : AllBlank blanks) (hrow : IsRun row)
    (hrest : ∀ c ∈ rest.head?, isFigure c = false) :
    Pattern.match? (.blanks :: .figures :: pattern) (blanks ++ (row ++ rest)) =
      (pattern.match? rest).map (row :: ·) := by
  rw [match?_blanks h (head?_run hrow _), match?_figures hrow hrest]

theorem match?_figures_of_head {c : Char} (h : isFigure c = false) :
    Pattern.match? (.figures :: pattern) (c :: rest) = none := by
  simp [Pattern.match?, h]

end Match

/-! ### Bare calls -/

/-- The calls that the patterns are meant for, of a kind, with their first literal and their text.
White space may stand after the name, around the parentheses and after a comma, in a box before the
bracket but not in it, and elsewhere around the names of the arguments and the signs. -/
inductive BareCall : Kind → List Char → List Char → Prop
  | box {a b c d e first second third : List Char}
      (hblank : ∀ blanks ∈ [a, b, c, d, e], AllBlank blanks)
      (hliteral : ∀ row ∈ [first, second, third], IsLiteral row) :
      BareCall .box first
        ["cube".toList, a, ['('], b, ['['], first, [','], c, second, [','], d, third, [']'], e,
          [')']].flatten
  | sphere {a b c d e first : List Char} (hblank : ∀ blanks ∈ [a, b, c, d, e], AllBlank blanks)
      (hliteral : IsLiteral first) :
      BareCall .sphere first
        ["sphere".toList, a, ['('], b, ['r'], c, ['='], d, first, e, [')']].flatten
  | cylinder {a b c d e f g h first second : List Char}
      (hblank : ∀ blanks ∈ [a, b, c, d, e, f, g, h], AllBlank blanks)
      (hliteral : ∀ row ∈ [first, second], IsLiteral row) :
      BareCall .cylinder first
        ["cylinder".toList, a, ['('], b, ['r'], c, ['='], d, first, [','], e, ['h'], f, ['='], g,
          second, h, [')']].flatten

/-- The calls that the patterns take: those that they are meant for, with any rows of digits and
points in place of the literals. -/
inductive PatternCall : Kind → List Char → List Char → Prop
  | box {a b c d e first second third : List Char}
      (hblank : ∀ blanks ∈ [a, b, c, d, e], AllBlank blanks)
      (hrun : ∀ row ∈ [first, second, third], IsRun row) :
      PatternCall .box first
        ["cube".toList, a, ['('], b, ['['], first, [','], c, second, [','], d, third, [']'], e,
          [')']].flatten
  | sphere {a b c d e first : List Char} (hblank : ∀ blanks ∈ [a, b, c, d, e], AllBlank blanks)
      (hrun : IsRun first) :
      PatternCall .sphere first
        ["sphere".toList, a, ['('], b, ['r'], c, ['='], d, first, e, [')']].flatten
  | cylinder {a b c d e f g h first second : List Char}
      (hblank : ∀ blanks ∈ [a, b, c, d, e, f, g, h], AllBlank blanks)
      (hrun : ∀ row ∈ [first, second], IsRun row) :
      PatternCall .cylinder first
        ["cylinder".toList, a, ['('], b, ['r'], c, ['='], d, first, [','], e, ['h'], f, ['='], g,
          second, h, [')']].flatten

theorem BareCall.isLiteral {kind : Kind} {row text : List Char} (h : BareCall kind row text) :
    IsLiteral row := by
  cases h with
  | box _ hliteral => exact hliteral _ List.mem_cons_self
  | sphere _ hliteral => exact hliteral
  | cylinder _ hliteral => exact hliteral _ List.mem_cons_self

theorem BareCall.patternCall {kind : Kind} {row text : List Char} (h : BareCall kind row text) :
    PatternCall kind row text := by
  cases h with
  | box hblank hliteral => exact .box hblank fun row hrow => (hliteral row hrow).isRun
  | sphere hblank hliteral => exact .sphere hblank hliteral.isRun
  | cylinder hblank hliteral => exact .cylinder hblank fun row hrow => (hliteral row hrow).isRun

/-- The pattern of the kind of a call takes its whole text, and no keyword stands in it after the
first. -/
theorem PatternCall.exists_arguments {kind : Kind} {row text : List Char}
    (h : PatternCall kind row text) :
    ∃ arguments, text = keyword kind ++ arguments ∧
      (∀ other, avoids (keyword other) arguments) ∧
      ∀ rest, ∃ rows, (argumentPattern kind).match? (arguments ++ rest) = some (row :: rows) := by
  cases h with
  | @box a b c d e first second third hblank hrun =>
    simp only [List.forall_mem_cons] at hblank hrun
    obtain ⟨ha, hb, hc, hd, he, -⟩ := hblank
    obtain ⟨hfirst, hsecond, hthird, -⟩ := hrun
    refine ⟨_, rfl, fun other => avoids_flatten ?_, fun rest => ⟨[second, third], ?_⟩⟩
    · simp [avoids_of_not_mem, avoids_of_allBlank, avoids_of_isRun, *]
    · simp only [List.flatten_cons, List.flatten_nil, List.append_assoc, List.cons_append,
        List.nil_append]
      rw [argumentPattern, match?_mark ha (by decide), match?_mark hb (by decide),
        match?_figures hfirst (head?_cons_of_eq_false (by decide) _), match?_exactly,
        match?_run hc hsecond (head?_cons_of_eq_false (by decide) _), match?_exactly,
        match?_run hd hthird (head?_cons_of_eq_false (by decide) _), match?_exactly,
        match?_mark he (by decide)]
      rfl
  | @sphere a b c d e first hblank hrun =>
    simp only [List.forall_mem_cons] at hblank
    obtain ⟨ha, hb, hc, hd, he, -⟩ := hblank
    refine ⟨_, rfl, fun other => avoids_flatten ?_, fun rest => ⟨[], ?_⟩⟩
    · simp [avoids_of_not_mem, avoids_of_allBlank, avoids_of_isRun, *]
    · simp only [List.flatten_cons, List.flatten_nil, List.append_assoc, List.cons_append,
        List.nil_append]
      rw [argumentPattern, match?_mark ha (by decide), match?_mark hb (by decide),
        match?_mark hc (by decide), match?_run hd hrun (head?_blanks he (by decide) _),
        match?_mark he (by decide)]
      rfl
  | @cylinder a b c d e f g h first second hblank hrun =>
    simp only [List.forall_mem_cons] at hblank hrun
    obtain ⟨ha, hb, hc, hd, he, hf, hg, hh, -⟩ := hblank
    obtain ⟨hfirst, hsecond, -⟩ := hrun
    refine ⟨_, rfl, fun other => avoids_flatten ?_, fun rest => ⟨[second], ?_⟩⟩
    · simp [avoids_of_not_mem, avoids_of_allBlank, avoids_of_isRun, *]
    · simp only [List.flatten_cons, List.flatten_nil, List.append_assoc, List.cons_append,
        List.nil_append]
      rw [argumentPattern, match?_mark ha (by decide), match?_mark hb (by decide),
        match?_mark hc (by decide),
        match?_run hd hfirst (head?_cons_of_eq_false (by decide) _), match?_exactly,
        match?_mark he (by decide), match?_mark hf (by decide),
        match?_run hg hsecond (head?_blanks hh (by decide) _), match?_mark hh (by decide)]
      rfl

/-- A bare call yields its solid, and nothing of another kind. -/
theorem yields_bareCall {kind : Kind} {row text : List Char} (h : BareCall kind row text)
    {d : Decimal} (hd : Decimal.scan row = (some d, [])) (other : Kind) :
    Yields other text
      (if kind = other then [⟨kind, scaleOfLength kind d.toFloat⟩] else []) := by
  obtain ⟨arguments, rfl, havoids, hmatch⟩ := h.patternCall.exists_arguments
  have hfound (rest : List Char) :
      ((argumentPattern kind).match? (arguments ++ rest)).bind (solidOfRows? kind) =
        some ⟨kind, scaleOfLength kind d.toFloat⟩ := by
    obtain ⟨rows, hrows⟩ := hmatch rest
    simp [hrows, solidOfRows?, hd]
  exact yields_call havoids hfound other

end SolidScene.Script
