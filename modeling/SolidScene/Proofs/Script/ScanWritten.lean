import SolidScene.Proofs.Script.RoundTrip
import SolidScene.Proofs.Script.Scan

/-!
# Scanning what was written

A scan takes from the script of a scene in the solid style what its patterns make of each statement:
the solid of a call whose literals have no minus, since figures do not include a sign.  In the shell
style the calls of spheres and cylinders end in a resolution, which their patterns do not provide
for, while the two boxes of a hollow box are calls like any other.  `scan_write` puts this together
for a whole scene.
-/

namespace SolidScene.Script

open Text

/-! ### Literals -/

theorem not_mem_digits {c : Char} (hc : c.isDigit = false) {digits : List Char}
    (h : ∀ d ∈ digits, d.isDigit) : c ∉ digits := by
  intro hmem
  rw [h c hmem] at hc
  contradiction

theorem isFigure_of_isDigit {c : Char} (h : c.isDigit) : isFigure c := by
  simp [isFigure, h]

/-- The text of a decimal is a literal. -/
theorem isLiteral_text (d : Decimal) : IsLiteral d.text := by
  have hdigits (n : Nat) : ∀ c ∈ digitsOfNat n, c.isDigit := fun _ => isDigit_of_mem_digitsOfNat
  have hpoint : ('.' : Char).isDigit = false := by decide
  obtain ⟨c, cs, hcs, hc⟩ := d.head?_text
  have hdigit : ∃ c ∈ d.text, c.isDigit := ⟨c, hcs ▸ List.mem_cons_self, hc⟩
  by_cases hnonneg : 0 ≤ d.exponent
  · rw [Decimal.text, if_pos hnonneg] at hdigit ⊢
    refine ⟨fun c hc => isFigure_of_isDigit (hdigits _ c hc), ?_, hdigit⟩
    rw [List.count_eq_zero.2 (not_mem_digits hpoint (hdigits _))]
    exact Nat.zero_le 1
  · rw [Decimal.text, if_neg hnonneg] at hdigit ⊢
    have hfixed : ∀ c ∈ fixedDigits d.exponent.natAbs d.digits, c.isDigit :=
      fun _ => isDigit_of_mem_fixedDigits
    refine ⟨?_, ?_, hdigit⟩
    · refine List.forall_mem_append.2 ⟨fun c hc => isFigure_of_isDigit (hdigits _ c hc), ?_⟩
      refine List.forall_mem_cons.2 ⟨rfl, fun c hc => isFigure_of_isDigit (hfixed c hc)⟩
    · rw [List.count_append, List.count_cons_self,
        List.count_eq_zero.2 (not_mem_digits hpoint (hdigits _)),
        List.count_eq_zero.2 (not_mem_digits hpoint hfixed)]

/-- The literal of a length is a row of figures, after a minus where there are hundredths below
zero. -/
theorem lengthText_eq (x : Float) : lengthText x =
    (if hundredths x < 0 then ['-'] else []) ++
      (Decimal.ofHundredths (hundredths x).natAbs).text := by
  simp [lengthText, lengthValue, Value.ofHundredths, Value.render]

/-- A literal without a minus is read as a whole by a scan. -/
theorem lengthText_of_not_mem {x : Float} (h : '-' ∉ lengthText x) :
    IsLiteral (lengthText x) ∧
      ∃ d, Decimal.scan (lengthText x) = (some d, []) ∧ d.toFloat = readBack x := by
  have hexponent := exponent_ofHundredths_le (hundredths x).natAbs
  by_cases hnegative : hundredths x < 0
  · simp [lengthText_eq, hnegative] at h
  · have htext : lengthText x = (Decimal.ofHundredths (hundredths x).natAbs).text := by
      simp [lengthText_eq, hnegative]
    rw [htext]
    refine ⟨isLiteral_text _, _, Decimal.scan_eq_of_read? (Decimal.read?_text hexponent), ?_⟩
    simp [readBack, lengthValue, Value.ofHundredths, Value.toFloat?, hnegative]

/-- A literal with a minus starts with it. -/
theorem lengthText_of_mem {x : Float} (h : '-' ∈ lengthText x) :
    ∃ row, lengthText x = '-' :: row ∧ IsLiteral row := by
  by_cases hnegative : hundredths x < 0
  · refine ⟨_, ?_, isLiteral_text (Decimal.ofHundredths (hundredths x).natAbs)⟩
    simp [lengthText_eq, hnegative]
  · rw [lengthText_eq, if_neg hnegative, List.nil_append] at h
    exact absurd ((isLiteral_text _).figures _ h) (by decide)

theorem avoids_lengthText (x : Float) (kind : Kind) : avoids (keyword kind) (lengthText x) := by
  by_cases hminus : '-' ∈ lengthText x
  · obtain ⟨row, hrow, hliteral⟩ := lengthText_of_mem hminus
    rw [hrow]
    have hsign : avoids (keyword kind) ['-'] := by cases kind <;> decide
    exact avoids_append hsign (avoids_of_isRun hliteral.isRun kind)
  · exact avoids_of_isRun (lengthText_of_not_mem hminus).1.isRun kind

/-! ### What a pattern makes of a written call -/

section Match

variable {pattern : Pattern} {rest : List Char}

theorem match?_next {c : Char} (hc : isBlank c = false) :
    Pattern.match? (.blanks :: .exactly [c] :: pattern) (c :: rest) = pattern.match? rest :=
  match?_mark allBlank_nil hc

theorem match?_space : Pattern.match? (.blanks :: pattern) (' ' :: rest) =
    Pattern.match? (.blanks :: pattern) rest := by
  have hblank : isBlank ' ' := by decide
  rw [Pattern.match?, Pattern.match?, skipBlanks_cons, if_pos hblank]

theorem match?_next_of_ne {c d : Char} (hd : isBlank d = false) (h : c ≠ d) :
    Pattern.match? (.blanks :: .exactly [c] :: pattern) (d :: rest) = none := by
  have hskip : Pattern.match? (.blanks :: .exactly [c] :: pattern) (d :: rest) =
      Pattern.match? (.exactly [c] :: pattern) (d :: rest) :=
    match?_blanks allBlank_nil (head?_cons_of_eq_false hd rest)
  rw [hskip, match?_exactly_of_ne h]

theorem match?_length (x : Float) (hrest : ∀ c ∈ rest.head?, isFigure c = false) :
    Pattern.match? (.figures :: pattern) (lengthText x ++ rest) =
      if '-' ∈ lengthText x then none else (pattern.match? rest).map (lengthText x :: ·) := by
  by_cases hminus : '-' ∈ lengthText x
  · obtain ⟨row, hrow, -⟩ := lengthText_of_mem hminus
    rw [if_pos hminus, hrow, List.cons_append, match?_figures_of_head (by decide)]
  · rw [if_neg hminus, match?_figures (lengthText_of_not_mem hminus).1.isRun hrest]

theorem match?_blanks_length (x : Float) (hrest : ∀ c ∈ rest.head?, isFigure c = false) :
    Pattern.match? (.blanks :: .figures :: pattern) (lengthText x ++ rest) =
      if '-' ∈ lengthText x then none else (pattern.match? rest).map (lengthText x :: ·) := by
  have hhead : ∀ c ∈ (lengthText x ++ rest).head?, isBlank c = false := by
    by_cases hminus : '-' ∈ lengthText x
    · obtain ⟨row, hrow, -⟩ := lengthText_of_mem hminus
      rw [hrow]
      exact head?_cons_of_eq_false (by decide) _
    · exact head?_run (lengthText_of_not_mem hminus).1.isRun rest
  have hskip : Pattern.match? (.blanks :: .figures :: pattern) (lengthText x ++ rest) =
      Pattern.match? (.figures :: pattern) (lengthText x ++ rest) :=
    match?_blanks allBlank_nil hhead
  rw [hskip, match?_length x hrest]

/-- A radius, with which the arguments of spheres and cylinders start. -/
theorem match?_radius (x : Float) (hrest : ∀ c ∈ rest.head?, isFigure c = false) :
    Pattern.match? (.blanks :: .exactly ['('] :: .blanks :: .exactly ['r'] :: .blanks ::
        .exactly ['='] :: .blanks :: .figures :: pattern)
      ('(' :: 'r' :: '=' :: (lengthText x ++ rest)) =
      if '-' ∈ lengthText x then none else (pattern.match? rest).map (lengthText x :: ·) := by
  rw [match?_next (by decide), match?_next (by decide), match?_next (by decide),
    match?_blanks_length x hrest]

/-- A height, which follows the radius of a cylinder. -/
theorem match?_height (x : Float) (hrest : ∀ c ∈ rest.head?, isFigure c = false) :
    Pattern.match? (.exactly [','] :: .blanks :: .exactly ['h'] :: .blanks :: .exactly ['='] ::
        .blanks :: .figures :: pattern)
      (',' :: ' ' :: 'h' :: '=' :: (lengthText x ++ rest)) =
      if '-' ∈ lengthText x then none else (pattern.match? rest).map (lengthText x :: ·) := by
  rw [match?_exactly, match?_space, match?_next (by decide), match?_next (by decide),
    match?_blanks_length x hrest]

end Match

/-! ### Written calls -/

/-- What a scan takes from a call that leads with one length and shows some lengths in all: the
solid that its literal gives, unless one of the literals has a minus. -/
def scanned? (kind : Kind) (leading : Float) (lengths : List Float) : Option Solid :=
  if ∀ x ∈ lengths, '-' ∉ lengthText x then some ⟨kind, scaleOfLength kind (readBack leading)⟩
  else none

theorem solidOfRows?_lengthText {x : Float} (h : '-' ∉ lengthText x) (kind : Kind)
    (rows : List (List Char)) :
    solidOfRows? kind (lengthText x :: rows) = some ⟨kind, scaleOfLength kind (readBack x)⟩ := by
  obtain ⟨-, d, hscan, hd⟩ := lengthText_of_not_mem h
  simp [solidOfRows?, hscan, hd]

theorem avoids_ofNat (n : Nat) (kind : Kind) : avoids (keyword kind) (Value.ofNat n).render :=
  avoids_of_isRun (isLiteral_text ⟨n, 0⟩).isRun kind

theorem renderCall_eq (name : String) (arguments : List Argument) :
    renderCall name arguments =
      name.toList ++ '(' :: (joinWith comma (arguments.map Argument.render) ++ [')']) := by
  rw [renderCall, List.append_assoc, List.cons_append]

section Calls

variable (x y : Float) (resolution : UInt32) (kind : Kind)

theorem renderCall_equalSides (name : String) :
    renderCall name (equalSides x) = name.toList ++
      [['(', '['], lengthText x, [',', ' '], lengthText x, [',', ' '], lengthText x,
        [']', ')']].flatten := by
  rw [renderCall_eq, equalSides, lengthText]
  refine congrArg (name.toList ++ ·) ?_
  generalize lengthValue x = v
  simp [Argument.render, Value.render, renderItems, joinWith, comma]

theorem yields_cube : Yields kind (renderCall "cube" (equalSides x))
    (if .box = kind then (scanned? .box x [x]).toList else []) := by
  have hname : "cube".toList = keyword .box := rfl
  rw [renderCall_equalSides, hname]
  refine yields_call (fun other => avoids_flatten ?_) (fun rest => ?_) kind
  · simp [avoids_lengthText, avoids_of_not_mem]
  · simp only [List.flatten_cons, List.flatten_nil, List.append_assoc, List.cons_append,
      List.nil_append]
    rw [argumentPattern, match?_next (by decide), match?_next (by decide),
      match?_length x (head?_cons_of_eq_false (by decide) _), match?_exactly, match?_space,
      match?_blanks_length x (head?_cons_of_eq_false (by decide) _), match?_exactly, match?_space,
      match?_blanks_length x (head?_cons_of_eq_false (by decide) _), match?_exactly,
      match?_next (by decide), Pattern.match?]
    by_cases hminus : '-' ∈ lengthText x
    · simp [scanned?, hminus]
    · simp [scanned?, hminus, solidOfRows?_lengthText]

theorem yields_sphere : Yields kind (renderCall "sphere" [named "r" (lengthValue x)])
    (if .sphere = kind then (scanned? .sphere x [x]).toList else []) := by
  have htext : renderCall "sphere" [named "r" (lengthValue x)] =
      keyword .sphere ++ [['(', 'r', '='], lengthText x, [')']].flatten := by
    rw [renderCall_eq, lengthText]
    refine congrArg ("sphere".toList ++ ·) ?_
    generalize lengthValue x = v
    simp [Argument.render, named, joinWith]
  rw [htext]
  refine yields_call (fun other => avoids_flatten ?_) (fun rest => ?_) kind
  · simp [avoids_lengthText, avoids_of_not_mem]
  · simp only [List.flatten_cons, List.flatten_nil, List.append_assoc, List.cons_append,
      List.nil_append]
    rw [argumentPattern, match?_radius x (head?_cons_of_eq_false (by decide) _),
      match?_next (by decide), Pattern.match?]
    by_cases hminus : '-' ∈ lengthText x
    · simp [scanned?, hminus]
    · simp [scanned?, hminus, solidOfRows?_lengthText]

theorem yields_cylinder :
    Yields kind (renderCall "cylinder" [named "r" (lengthValue x), named "h" (lengthValue y)])
      (if .cylinder = kind then (scanned? .cylinder x [x, y]).toList else []) := by
  have htext : renderCall "cylinder" [named "r" (lengthValue x), named "h" (lengthValue y)] =
      keyword .cylinder ++
        [['(', 'r', '='], lengthText x, [',', ' ', 'h', '='], lengthText y, [')']].flatten := by
    rw [renderCall_eq, lengthText, lengthText]
    refine congrArg ("cylinder".toList ++ ·) ?_
    generalize lengthValue x = v
    generalize lengthValue y = w
    simp [Argument.render, named, joinWith, comma]
  rw [htext]
  refine yields_call (fun other => avoids_flatten ?_) (fun rest => ?_) kind
  · simp [avoids_lengthText, avoids_of_not_mem]
  · simp only [List.flatten_cons, List.flatten_nil, List.append_assoc, List.cons_append,
      List.nil_append]
    rw [argumentPattern, match?_radius x (head?_cons_of_eq_false (by decide) _),
      match?_height y (head?_cons_of_eq_false (by decide) _), match?_next (by decide),
      Pattern.match?]
    by_cases hradius : '-' ∈ lengthText x
    · simp [scanned?, hradius]
    · by_cases hheight : '-' ∈ lengthText y
      · simp [scanned?, hheight]
      · simp [scanned?, hradius, hheight, solidOfRows?_lengthText]

/-- The pattern of spheres does not provide for a resolution. -/
theorem yields_sphereCall :
    Yields kind ((sphereCall x resolution).render 1) [] := by
  have htext : (sphereCall x resolution).render 1 =
      keyword .sphere ++ [['(', 'r', '='], lengthText x, [',', ' ', '$', 'f', 'n', '='],
        (Value.ofNat resolution.toNat).render, [')', ';']].flatten := by
    rw [sphereCall, Statement.render, renderCall_eq, List.append_assoc, lengthText]
    refine congrArg ("sphere".toList ++ ·) ?_
    generalize lengthValue x = v
    simp [Argument.render, named, joinWith, comma]
  rw [htext]
  refine yields_of_match?_eq_none (fun other => avoids_flatten ?_) (fun rest => ?_) kind
  · simp [avoids_lengthText, avoids_ofNat, avoids_of_not_mem]
  · simp only [List.flatten_cons, List.flatten_nil, List.append_assoc, List.cons_append,
      List.nil_append]
    rw [argumentPattern, match?_radius x (head?_cons_of_eq_false (by decide) _),
      match?_next_of_ne (by decide) (by decide)]
    simp

/-- The pattern of cylinders does not provide for a resolution. -/
theorem yields_cylinderCall :
    Yields kind ((cylinderCall x y resolution).render 1) [] := by
  have htext : (cylinderCall x y resolution).render 1 =
      keyword .cylinder ++ [['(', 'r', '='], lengthText x, [',', ' ', 'h', '='], lengthText y,
        [',', ' ', '$', 'f', 'n', '='], (Value.ofNat resolution.toNat).render,
        [')', ';']].flatten := by
    rw [cylinderCall, Statement.render, renderCall_eq, List.append_assoc, lengthText, lengthText]
    refine congrArg ("cylinder".toList ++ ·) ?_
    generalize lengthValue x = v
    generalize lengthValue y = w
    simp [Argument.render, named, joinWith, comma]
  rw [htext]
  refine yields_of_match?_eq_none (fun other => avoids_flatten ?_) (fun rest => ?_) kind
  · simp [avoids_lengthText, avoids_ofNat, avoids_of_not_mem]
  · simp only [List.flatten_cons, List.flatten_nil, List.append_assoc, List.cons_append,
      List.nil_append]
    rw [argumentPattern, match?_radius x (head?_cons_of_eq_false (by decide) _),
      match?_height y (head?_cons_of_eq_false (by decide) _),
      match?_next_of_ne (by decide) (by decide)]
    simp

theorem avoids_translate : avoids (keyword kind) (renderCall "translate" (equalSides x)) := by
  have hname : avoids (keyword kind) "translate".toList := by cases kind <;> decide
  rw [renderCall_equalSides]
  refine avoids_append hname (avoids_flatten ?_)
  simp [avoids_lengthText, avoids_of_not_mem]

end Calls

/-! ### Written statements -/

/-- A text that has no first letter of a keyword yields nothing. -/
theorem yields_of_not_mem {text : List Char} (hc : 'c' ∉ text) (hs : 's' ∉ text) (kind : Kind) :
    Yields kind text [] := yields_of_avoids (avoids_of_not_mem hc hs kind)

theorem yields_cubeStatement (x : Float) (level : Nat) (kind : Kind) :
    Yields kind ((Statement.call "cube" (equalSides x)).render level)
      (if .box = kind then (scanned? .box x [x]).toList else []) := by
  rw [Statement.render]
  exact (yields_cube x kind).append_nothing (yields_of_not_mem (by decide) (by decide) kind)

theorem yields_translatedCube (offset x : Float) (level : Nat) (kind : Kind) :
    Yields kind
      ((Statement.callNext "translate" (equalSides offset)
        (.call "cube" (equalSides x))).render level)
      (if .box = kind then (scanned? .box x [x]).toList else []) := by
  have htranslate := yields_of_avoids (avoids_translate offset kind)
  have hblank : Yields kind [' '] [] := yields_of_not_mem (by decide) (by decide) kind
  rw [Statement.render]
  exact htranslate.nothing_append (hblank.nothing_append (yields_cubeStatement x level kind))

/-- The lengths that the bare call of a solid shows. -/
def shownLengths (factor : Float) (s : Solid) : List Float :=
  match s.kind with
  | .box => [s.scale * factor]
  | .sphere => [sphereRadiusFactor * s.scale * factor]
  | .cylinder => [cylinderRadiusFactor * s.scale * factor, cylinderHeightFactor * s.scale * factor]

theorem yields_solidStatement (factor : Float) (s : Solid) (kind : Kind) :
    Yields kind ((solidStatement factor s).render 0)
      (if s.kind = kind then
        (scanned? s.kind (leadingLength factor s) (shownLengths factor s)).toList
      else []) := by
  have hend : Yields kind [';'] [] := yields_of_not_mem (by decide) (by decide) kind
  obtain ⟨own, scale⟩ := s
  cases own with
  | box =>
    simp only [solidStatement, Statement.render, leadingLength, shownLengths]
    exact (yields_cube _ kind).append_nothing hend
  | sphere =>
    simp only [solidStatement, Statement.render, leadingLength, shownLengths]
    exact (yields_sphere _ kind).append_nothing hend
  | cylinder =>
    simp only [solidStatement, Statement.render, leadingLength, shownLengths]
    exact (yields_cylinder _ _ kind).append_nothing hend

/-- The edges of the two boxes that a hollow box is made of, the outer one first; none of another
solid. -/
def hollowEdges (p : Parameters) (s : Solid) : List Float :=
  match s.kind with
  | .box => [s.scale * p.unit.factor, (s.scale - 2.0 * p.wallThickness) * p.unit.factor]
  | .sphere => []
  | .cylinder => []

/-- The text of a hollow solid around the statements of its outside and its inside. -/
theorem render_hollow (outside inside : Statement) :
    (Statement.callBlock "difference" [] [outside, inside]).render 0 =
      ["difference() \x7b\n    ".toList, outside.render 1, "\n    ".toList, inside.render 1,
        "\n\x7d".toList].flatten := by
  simp [Statement.render, renderBody, renderLines, indentation, renderCall, joinWith]

theorem yields_hollow {outside inside : Statement} {kind : Kind} {first second : List Solid}
    (houtside : Yields kind (outside.render 1) first)
    (hinside : Yields kind (inside.render 1) second) :
    Yields kind ((Statement.callBlock "difference" [] [outside, inside]).render 0)
      (first ++ second) := by
  have hopen : Yields kind "difference() \x7b\n    ".toList [] :=
    yields_of_avoids (by cases kind <;> decide)
  have hbetween : Yields kind "\n    ".toList [] :=
    yields_of_not_mem (by decide) (by decide) kind
  have hclose : Yields kind "\n\x7d".toList [] :=
    yields_of_not_mem (by decide) (by decide) kind
  rw [render_hollow, List.flatten_cons, List.flatten_cons, List.flatten_cons, List.flatten_cons,
    List.flatten_cons, List.flatten_nil, List.append_nil]
  exact hopen.nothing_append
    (houtside.append (hbetween.nothing_append (hinside.append_nothing hclose)))

theorem yields_shellStatement (p : Parameters) (s : Solid) (kind : Kind) :
    Yields kind ((Statement.callBlock "difference" [] [shellOutside p s, shellInside p s]).render 0)
      (if .box = kind then (hollowEdges p s).filterMap fun x => scanned? .box x [x] else []) := by
  have hnone (h : hollowEdges p s = []) : (if .box = kind then
      (hollowEdges p s).filterMap fun x => scanned? .box x [x] else []) = [] ++ [] := by
    simp [h]
  obtain ⟨own, scale⟩ := s
  cases own with
  | box =>
    have hedges : (if .box = kind then (hollowEdges p ⟨.box, scale⟩).filterMap
          fun x => scanned? .box x [x] else []) =
        (if .box = kind then
          (scanned? .box (scale * p.unit.factor) [scale * p.unit.factor]).toList else []) ++
        if .box = kind then
          (scanned? .box ((scale - 2.0 * p.wallThickness) * p.unit.factor)
            [(scale - 2.0 * p.wallThickness) * p.unit.factor]).toList else [] := by
      by_cases hkind : .box = kind
      · simp only [if_pos hkind, hollowEdges, List.filterMap_eq_flatMap_toList, List.flatMap_cons,
          List.flatMap_nil, List.append_nil]
      · simp only [if_neg hkind, List.append_nil]
    rw [hedges]
    exact yields_hollow (yields_cubeStatement _ 1 kind) (yields_translatedCube _ _ 1 kind)
  | sphere =>
    rw [hnone rfl]
    exact yields_hollow (yields_sphereCall _ _ kind) (yields_sphereCall _ _ kind)
  | cylinder =>
    rw [hnone rfl]
    exact yields_hollow (yields_cylinderCall _ _ _ kind) (yields_cylinderCall _ _ _ kind)

/-! ### The script of a scene -/

/-- What a scan for a kind takes from the statement of a solid. -/
def scannedIn (p : Parameters) (kind : Kind) (s : Solid) : List Solid :=
  match p.style with
  | .solid =>
    if s.kind = kind then
      (scanned? s.kind (leadingLength p.unit.factor s) (shownLengths p.unit.factor s)).toList
    else []
  | .shell =>
    if .box = kind then (hollowEdges p s).filterMap fun x => scanned? .box x [x] else []

theorem yields_statement (p : Parameters) (s : Solid) (kind : Kind) :
    Yields kind ((statement p s).render 0) (scannedIn p kind s) := by
  rw [statement, scannedIn]
  cases p.style with
  | solid => exact yields_solidStatement p.unit.factor s kind
  | shell => exact yields_shellStatement p s kind

/-- Texts on lines of their own yield what each of them yields. -/
theorem yields_lines {α : Type} {kind : Kind} {text : α → List Char} {found : α → List Solid}
    (h : ∀ x, Yields kind (text x) (found x)) (xs : List α) :
    Yields kind (joinWith ['\n'] (xs.map text)) (xs.flatMap found) := by
  have hbreak : Yields kind ['\n'] [] := yields_of_not_mem (by decide) (by decide) kind
  induction xs with
  | nil => exact yields_nil
  | cons x xs ih =>
    cases xs with
    | nil => simpa [joinWith] using h x
    | cons y xs =>
      have hsplit : joinWith ['\n'] ((x :: y :: xs).map text) =
          text x ++ (['\n'] ++ joinWith ['\n'] ((y :: xs).map text)) := by
        simp [joinWith]
      rw [hsplit, List.flatMap_cons]
      exact (h x).append (hbreak.nothing_append ih)

theorem scan_write_eq_flatMap (p : Parameters) (solids : List Solid) :
    scan (write p solids) = Kind.all.flatMap fun kind => solids.flatMap (scannedIn p kind) := by
  rw [scan, write, String.toList_ofList]
  refine List.flatMap_congr fun kind _ => ?_
  rw [render, List.map_map]
  exact (yields_lines (fun s => yields_statement p s kind) solids).scanKind_eq

/-- The literal of zero reads back as zero. -/
theorem readBack_eq_zero {x : Float} (h : lengthText x = "0.00".toList) : readBack x = 0.0 := by
  have hread : readFloat? "0.00".toList = some 0.0 := by decide
  rwa [← h, readFloat?_lengthText, Option.some.injEq] at hread

/-- **What a scan finds in the script of a scene.**  Every literal reads back as a double, that of
zero as one that gives scale zero.  In the solid style a scan finds boxes, then spheres, then
cylinders, of each kind in order those shapes none of whose literals has a minus, with the scale
that the literal of the edge or the radius gives without any unit: the edge itself, or the radius
divided by that at scale one.  In the shell style it finds of each box in order the outer and the
inner edge, as far as they are written without a minus, and nothing of spheres and cylinders. -/
theorem scan_write :
    ∃ readBack : Float → Float, (∀ x, readFloat? (lengthText x) = some (readBack x)) ∧
      (∀ x, lengthText x = "0.00".toList →
        readBack x = 0.0 ∧ readBack x / 0.7 = 0.0 ∧ readBack x / 0.5 = 0.0) ∧
      ∀ (p : Parameters) (shapes : List Shape),
        scan (write p (shapes.map Shape.toSolid)) =
          match p.style with
          | .solid => Kind.all.flatMap fun kind => shapes.filterMap fun (s : Shape) =>
            if s.kind = kind ∧
                ∀ x ∈ shownLengths p.unit.factor s.toSolid, '-' ∉ lengthText x then
              some ⟨kind, match kind with
                | .box => readBack (s.scale * p.unit.factor)
                | .sphere => readBack (0.7 * s.scale * p.unit.factor) / 0.7
                | .cylinder => readBack (0.5 * s.scale * p.unit.factor) / 0.5⟩
            else none
          | .shell => shapes.flatMap fun (s : Shape) =>
            (hollowEdges p s.toSolid).filterMap fun x =>
              if '-' ∉ lengthText x then some ⟨.box, readBack x⟩ else none := by
  refine ⟨readBack, readFloat?_lengthText, fun x hx => ?_, fun p shapes => ?_⟩
  · rw [readBack_eq_zero hx]
    decide
  rw [scan_write_eq_flatMap]
  cases hstyle : p.style with
  | solid =>
    refine List.flatMap_congr fun kind _ => ?_
    rw [List.flatMap_map, List.filterMap_eq_flatMap_toList]
    refine List.flatMap_congr fun s _ => ?_
    simp only [scannedIn, hstyle, scanned?]
    by_cases hkind : s.kind = kind
    · subst hkind
      by_cases hplain : ∀ x ∈ shownLengths p.unit.factor s.toSolid, '-' ∉ lengthText x
      · rw [if_pos rfl, if_pos hplain, if_pos ⟨rfl, hplain⟩]
        obtain ⟨⟨own, scale⟩, position, color⟩ := s
        cases own <;> rfl
      · rw [if_pos rfl, if_neg hplain, if_neg fun h => hplain h.2]
    · rw [if_neg hkind, if_neg fun h => hkind h.1]
      rfl
  | shell =>
    have hnone (kind : Kind) (hkind : .box ≠ kind) (s : Solid) : scannedIn p kind s = [] := by
      simp only [scannedIn, hstyle, if_neg hkind]
    have hbox (s : Solid) : scannedIn p .box s = (hollowEdges p s).filterMap fun x =>
        if '-' ∉ lengthText x then some ⟨.box, readBack x⟩ else none := by
      simp only [scannedIn, hstyle, scanned?, scaleOfLength, if_pos, List.forall_mem_singleton]
    simp [Kind.all, hnone, hbox, List.flatMap_map]

end SolidScene.Script
