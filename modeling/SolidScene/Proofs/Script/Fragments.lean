import SolidScene.Proofs.Double.Decimal
import SolidScene.Proofs.Script.ScanWritten

/-!
# Scripts compared fragment by fragment

`fragments` takes a text apart into its literals, each as long as it can be, and the characters
between them; nothing gets lost (`flatMap_text_fragments`).  Two scripts match if they have the same
characters between their literals and the same whole numbers, and if the lengths that stand in the
same place are related (`Fragment.Matches`).

`Alike` compares texts together with what follows them, which starts with no character of a literal.
So it goes along with the writer: from literals over calls (`Alike.call`) to the statements of
solids (`alike_statement`) and whole scripts (`forall₂_fragments_write`).
-/

namespace SolidScene.Script

/-! ### The fragments of a text -/

/-- What a text is made of. -/
inductive Fragment
  /-- A character that stands in no literal. -/
  | mark (c : Char)
  /-- A whole literal. -/
  | literal (row : List Char)
  deriving DecidableEq

/-- The characters of a fragment. -/
def Fragment.text : Fragment → List Char
  | mark c => [c]
  | literal row => row

/-- Whether a character stands in literals. -/
def inLiteral (c : Char) : Bool := isFigure c || c == '-'

/-- Fragments after a character of a literal, which a literal at their start takes in. -/
def consLiteral (c : Char) : List Fragment → List Fragment
  | .literal row :: rest => .literal (c :: row) :: rest
  | rest => .literal [c] :: rest

/-- The fragments of a text. -/
def fragments : List Char → List Fragment
  | [] => []
  | c :: cs => if inLiteral c then consLiteral c (fragments cs) else .mark c :: fragments cs

theorem flatMap_text_fragments (cs : List Char) : (fragments cs).flatMap Fragment.text = cs := by
  have hcons (c : Char) (ps : List Fragment) :
      (consLiteral c ps).flatMap Fragment.text = c :: ps.flatMap Fragment.text := by
    unfold consLiteral
    split <;> rfl
  induction cs with
  | nil => rfl
  | cons c cs ih =>
    rw [fragments]
    split
    · rw [hcons, ih]
    · rw [List.flatMap_cons, ih]
      rfl

/-- A row of characters between literals. -/
def AllMarks (cs : List Char) : Prop := ∀ c ∈ cs, inLiteral c = false

instance : DecidablePred AllMarks := fun cs => List.decidableBAll (inLiteral · = false) cs

theorem fragments_marks {cs : List Char} (h : AllMarks cs) (rest : List Char) :
    fragments (cs ++ rest) = cs.map .mark ++ fragments rest := by
  induction cs with
  | nil => rfl
  | cons c cs ih =>
    obtain ⟨hc, hcs⟩ := List.forall_mem_cons.1 h
    rw [List.cons_append, fragments, hc, if_neg Bool.false_ne_true, ih hcs]
    rfl

/-- A literal ends where no character of a literal follows. -/
theorem fragments_literal {row rest : List Char} (hrow : ∀ c ∈ row, inLiteral c) (hne : row ≠ [])
    (hrest : ∀ c ∈ rest.head?, inLiteral c = false) :
    fragments (row ++ rest) = .literal row :: fragments rest := by
  induction row with
  | nil => exact absurd rfl hne
  | cons c cs ih =>
    obtain ⟨hc, hcs⟩ := List.forall_mem_cons.1 hrow
    rw [List.cons_append, fragments, if_pos hc]
    rcases eq_or_ne cs [] with rfl | hcons
    · cases rest with
      | nil => rfl
      | cons d ds =>
        rw [List.nil_append, fragments, hrest d rfl, if_neg Bool.false_ne_true]
        rfl
    · rw [ih hcs hcons]
      rfl

/-! ### Scripts that match -/

/-- The number that a row of digits says, if it has two places after its point. -/
def readPlaces? (digits : List Char) : Option ℚ :=
  ((Decimal.read? digits).filter (·.exponent = -2)).map Decimal.toRat

/-- The number that a literal says, if it has two places after its point. -/
def readLength? : List Char → Option ℚ
  | '-' :: digits => (readPlaces? digits).map (- ·)
  | digits => readPlaces? digits

/-- Fragments that have the same place in two scripts: the same mark, the same whole number, or two
lengths that are related. -/
inductive Fragment.Matches (R : ℚ → ℚ → Prop) : Fragment → Fragment → Prop
  | mark (c : Char) : Matches R (.mark c) (.mark c)
  | count {row : List Char} {n : ℕ} (h : Decimal.read? row = some ⟨n, 0⟩) :
    Matches R (.literal row) (.literal row)
  | length {row row' : List Char} {a b : ℚ} (ha : readLength? row = some a)
    (hb : readLength? row' = some b) (h : R a b) : Matches R (.literal row) (.literal row')

/-- Texts that match and may stand after a literal. -/
structure MayFollow (R : ℚ → ℚ → Prop) (rest rest' : List Char) : Prop where
  head : ∀ c ∈ rest.head?, inLiteral c = false
  head' : ∀ c ∈ rest'.head?, inLiteral c = false
  fragments : List.Forall₂ (Fragment.Matches R) (fragments rest) (fragments rest')

/-- Texts that match together with what follows them. -/
def Alike (R : ℚ → ℚ → Prop) (text text' : List Char) : Prop :=
  ∀ rest rest', MayFollow R rest rest' →
    List.Forall₂ (Fragment.Matches R) (fragments (text ++ rest)) (fragments (text' ++ rest'))

section Alike

variable {R : ℚ → ℚ → Prop}

namespace Alike

variable {text text' next next' marks : List Char}

theorem forall₂_fragments (h : Alike R text text') :
    List.Forall₂ (Fragment.Matches R) (fragments text) (fragments text') := by
  simpa using h [] [] ⟨by simp, by simp, .nil⟩

theorem nil : Alike R [] [] := fun _ _ h => h.fragments

theorem literal {row row' : List Char} (hrow : ∀ c ∈ row, inLiteral c) (hne : row ≠ [])
    (hrow' : ∀ c ∈ row', inLiteral c) (hne' : row' ≠ [])
    (h : Fragment.Matches R (.literal row) (.literal row')) : Alike R row row' := by
  intro rest rest' hrest
  rw [fragments_literal hrow hne hrest.head, fragments_literal hrow' hne' hrest.head']
  exact .cons h hrest.fragments

/-- Marks keep texts apart. -/
theorem append (h : Alike R text text') (marks : List Char) (hmarks : AllMarks marks)
    (hne : marks ≠ []) (hnext : Alike R next next') :
    Alike R (text ++ (marks ++ next)) (text' ++ (marks ++ next')) := by
  intro rest rest' hrest
  have hhead (cs : List Char) : ∀ c ∈ (marks ++ cs).head?, inLiteral c = false := by
    intro c hc
    rw [List.head?_append_of_ne_nil _ hne] at hc
    exact hmarks c (List.mem_of_mem_head? hc)
  simp only [List.append_assoc]
  refine h _ _ ⟨hhead _, hhead _, ?_⟩
  rw [fragments_marks hmarks, fragments_marks hmarks]
  refine List.rel_append ?_ (hnext rest rest' hrest)
  rw [List.forall₂_map_left_iff, List.forall₂_map_right_iff, List.forall₂_same]
  exact fun c _ => .mark c

theorem append_marks (h : Alike R text text') (hmarks : AllMarks marks) :
    Alike R (text ++ marks) (text' ++ marks) := by
  rcases eq_or_ne marks [] with rfl | hne
  · rwa [List.append_nil, List.append_nil]
  · simpa using h.append marks hmarks hne nil

theorem marks_append (marks : List Char) (hmarks : AllMarks marks) (hne : marks ≠ [])
    (h : Alike R text text') : Alike R (marks ++ text) (marks ++ text') :=
  nil.append marks hmarks hne h

theorem of_allMarks (hmarks : AllMarks marks) : Alike R marks marks := nil.append_marks hmarks

/-- Texts with marks between them. -/
theorem joinWith (hmarks : AllMarks marks) (hne : marks ≠ []) {texts texts' : List (List Char)}
    (h : List.Forall₂ (Alike R) texts texts') :
    Alike R (joinWith marks texts) (joinWith marks texts') := by
  induction h with
  | nil => exact nil
  | cons hfirst hrest ih =>
    -- Marks or nothing follow the first text, so no literal of it runs on into the next one.
    cases hrest with
    | nil => exact hfirst
    | cons =>
      simp only [Script.joinWith, List.append_assoc] at ih ⊢
      exact hfirst.append marks hmarks hne ih

/-- Calls of one name with arguments that match. -/
theorem call {name : String} (hname : AllMarks name.toList) {arguments arguments' : List Argument}
    (h : List.Forall₂ (Alike R) (arguments.map Argument.render) (arguments'.map Argument.render)) :
    Alike R (renderCall name arguments) (renderCall name arguments') := by
  rw [renderCall_eq, renderCall_eq]
  exact (of_allMarks hname).append ['('] (by decide) (by decide)
    ((joinWith (by decide) (by decide) h).append_marks (by decide))

end Alike

/-! ### Literals -/

theorem inLiteral_of_mem_text {d : Decimal} {c : Char} (h : c ∈ d.text) : inLiteral c := by
  rw [inLiteral, (isLiteral_text d).figures c h, Bool.true_or]

theorem text_ne_nil (d : Decimal) : d.text ≠ [] := by
  obtain ⟨c, cs, hcs, -⟩ := d.head?_text
  rw [hcs]
  exact List.cons_ne_nil c cs

theorem inLiteral_of_mem_lengthText {x : Float} {c : Char} (h : c ∈ lengthText x) :
    inLiteral c := by
  rw [lengthText_eq, List.mem_append] at h
  rcases h with h | h
  · split at h
    · rw [List.mem_singleton.1 h]
      decide
    · cases h
  · exact inLiteral_of_mem_text h

theorem lengthText_ne_nil (x : Float) : lengthText x ≠ [] := by
  rw [lengthText_eq]
  exact List.append_ne_nil_of_right_ne_nil _ (text_ne_nil _)

theorem readPlaces?_text (n : ℕ) :
    readPlaces? (Decimal.ofHundredths n).text = some ((n : ℚ) / 100) := by
  have hfilter : (some (Decimal.ofHundredths n)).filter (·.exponent = -2) =
      some (Decimal.ofHundredths n) := rfl
  rw [readPlaces?, Decimal.read?_text (exponent_ofHundredths_le n), hfilter, Option.map_some,
    Decimal.toRat]
  norm_num [Decimal.ofHundredths, div_eq_mul_inv]

/-- The literal of a length says its hundredths. -/
theorem readLength?_lengthText (x : Float) :
    readLength? (lengthText x) = some ((hundredths x : ℚ) / 100) := by
  have hread := readPlaces?_text (hundredths x).natAbs
  rw [lengthText_eq]
  split
  · next hnegative =>
    have habs : (hundredths x : ℚ) = -((hundredths x).natAbs : ℤ) := by
      exact_mod_cast (by omega : hundredths x = -((hundredths x).natAbs : ℤ))
    rw [List.singleton_append, readLength?, hread, habs, neg_div, Option.map_some, Int.cast_natCast]
  · next hnonneg =>
    have habs : (hundredths x : ℚ) = ((hundredths x).natAbs : ℤ) := by
      exact_mod_cast (by omega : hundredths x = ((hundredths x).natAbs : ℤ))
    obtain ⟨c, cs, hcs, hc⟩ := (Decimal.ofHundredths (hundredths x).natAbs).head?_text
    rw [hcs] at hread
    rw [List.nil_append, hcs, habs, Int.cast_natCast, readLength?, hread]
    intro ds heq
    rw [(List.cons.inj heq).1] at hc
    exact absurd hc (by decide)

theorem alike_lengthText {x y : Float} (h : R (hundredths x / 100) (hundredths y / 100)) :
    Alike R (lengthText x) (lengthText y) :=
  .literal (fun _ => inLiteral_of_mem_lengthText) (lengthText_ne_nil x)
    (fun _ => inLiteral_of_mem_lengthText) (lengthText_ne_nil y)
    (.length (readLength?_lengthText x) (readLength?_lengthText y) h)

theorem alike_ofNat (n : ℕ) : Alike R (Value.ofNat n).render (Value.ofNat n).render := by
  have htext : (Value.ofNat n).render = (⟨n, 0⟩ : Decimal).text := rfl
  have hrow : ∀ c ∈ (⟨n, 0⟩ : Decimal).text, inLiteral c := fun _ => inLiteral_of_mem_text
  have hread : Decimal.read? (⟨n, 0⟩ : Decimal).text = some ⟨n, 0⟩ := Decimal.read?_text le_rfl
  rw [htext]
  exact .literal hrow (text_ne_nil _) hrow (text_ne_nil _) (.count hread)

/-! ### Statements -/

section Statements

variable {x x' y y' : Float}

theorem alike_named {name : String} (hname : AllMarks name.toList) {v w : Value}
    (h : Alike R v.render w.render) : Alike R (named name v).render (named name w).render :=
  (Alike.of_allMarks hname).append ['='] (by decide) (by decide) h

theorem alike_call {name : String} (hname : AllMarks name.toList)
    {arguments arguments' : List Argument}
    (h : List.Forall₂ (Alike R) (arguments.map Argument.render) (arguments'.map Argument.render))
    (level : ℕ) :
    Alike R ((Statement.call name arguments).render level)
      ((Statement.call name arguments').render level) := by
  rw [Statement.render, Statement.render]
  exact (Alike.call hname h).append_marks (by decide)

theorem alike_callNext {name : String} (hname : AllMarks name.toList)
    {arguments arguments' : List Argument}
    (h : List.Forall₂ (Alike R) (arguments.map Argument.render) (arguments'.map Argument.render))
    {level : ℕ} {next next' : Statement}
    (hnext : Alike R (next.render level) (next'.render level)) :
    Alike R ((Statement.callNext name arguments next).render level)
      ((Statement.callNext name arguments' next').render level) := by
  rw [Statement.render, Statement.render]
  exact (Alike.call hname h).append [' '] (by decide) (by decide) hnext

theorem alike_equalSides (h : Alike R (lengthText x) (lengthText x')) :
    List.Forall₂ (Alike R) ((equalSides x).map Argument.render)
      ((equalSides x').map Argument.render) := by
  have hsides : Alike R (joinWith comma [lengthText x, lengthText x, lengthText x])
      (joinWith comma [lengthText x', lengthText x', lengthText x']) :=
    .joinWith (by decide) (by decide) (.cons h (.cons h (.cons h .nil)))
  exact .cons ((hsides.marks_append ['['] (by decide) (by decide)).append_marks
    (by decide)) .nil

theorem alike_sphereCall (h : Alike R (lengthText x) (lengthText x')) (resolution : UInt32)
    (level : ℕ) :
    Alike R ((sphereCall x resolution).render level) ((sphereCall x' resolution).render level) :=
  alike_call (by decide) (.cons (alike_named (by decide) h)
    (.cons (alike_named (by decide) (alike_ofNat _)) .nil)) level

theorem alike_cylinderCall (hx : Alike R (lengthText x) (lengthText x'))
    (hy : Alike R (lengthText y) (lengthText y')) (resolution : UInt32) (level : ℕ) :
    Alike R ((cylinderCall x y resolution).render level)
      ((cylinderCall x' y' resolution).render level) :=
  alike_call (by decide) (.cons (alike_named (by decide) hx)
    (.cons (alike_named (by decide) hy)
      (.cons (alike_named (by decide) (alike_ofNat _)) .nil))) level

theorem alike_hollow {outside outside' inside inside' : Statement}
    (houtside : Alike R (outside.render 1) (outside'.render 1))
    (hinside : Alike R (inside.render 1) (inside'.render 1)) :
    Alike R ((Statement.callBlock "difference" [] [outside, inside]).render 0)
      ((Statement.callBlock "difference" [] [outside', inside']).render 0) := by
  rw [render_hollow, render_hollow]
  simp only [List.flatten_cons, List.flatten_nil, List.append_nil]
  exact .marks_append _ (by decide) (by decide)
    (houtside.append _ (by decide) (by decide) (hinside.append_marks (by decide)))

/-- The lengths in the statement of a solid, as they are before the unit multiplies them. -/
def unscaledLengths (p : Parameters) (s : Solid) : List Float :=
  match p.style, s.kind with
  | .solid, .box => [s.scale]
  | .solid, .sphere => [sphereRadiusFactor * s.scale]
  | .solid, .cylinder => [cylinderRadiusFactor * s.scale, cylinderHeightFactor * s.scale]
  | .shell, .box => [s.scale, p.wallThickness, s.scale - 2.0 * p.wallThickness]
  | .shell, .sphere =>
    [sphereRadiusFactor * s.scale, sphereRadiusFactor * s.scale - p.wallThickness]
  | .shell, .cylinder =>
    [cylinderRadiusFactor * s.scale, cylinderHeightFactor * s.scale,
      cylinderRadiusFactor * s.scale - p.wallThickness]

/-- **The statements of a solid in two units** match if its lengths do. -/
theorem alike_statement {p : Parameters} {unit : LengthUnit} {s : Solid}
    (h : ∀ d ∈ unscaledLengths p s,
      Alike R (lengthText (d * unit.factor)) (lengthText (d * p.unit.factor))) :
    Alike R ((statement { p with unit := unit } s).render 0) ((statement p s).render 0) := by
  obtain ⟨unit', wall, resolution, style⟩ := p
  obtain ⟨kind, scale⟩ := s
  cases style with
  | solid =>
    cases kind with
    | box => exact alike_call (by decide) (alike_equalSides (h _ (by simp [unscaledLengths]))) 0
    | sphere =>
      exact alike_call (by decide)
        (.cons (alike_named (by decide) (h _ (by simp [unscaledLengths]))) .nil) 0
    | cylinder =>
      simp only [unscaledLengths, List.forall_mem_cons] at h
      obtain ⟨hradius, hheight, -⟩ := h
      exact alike_call (by decide) (.cons (alike_named (by decide) hradius)
        (.cons (alike_named (by decide) hheight) .nil)) 0
  | shell =>
    cases kind with
    | box =>
      simp only [unscaledLengths, List.forall_mem_cons] at h
      obtain ⟨houter, hwall, hinner, -⟩ := h
      refine alike_hollow (alike_call (by decide) (alike_equalSides houter) 1) ?_
      exact alike_callNext (by decide) (alike_equalSides hwall)
        (alike_call (by decide) (alike_equalSides hinner) 1)
    | sphere =>
      simp only [unscaledLengths, List.forall_mem_cons] at h
      obtain ⟨houter, hinner, -⟩ := h
      exact alike_hollow (alike_sphereCall houter _ 1) (alike_sphereCall hinner _ 1)
    | cylinder =>
      simp only [unscaledLengths, List.forall_mem_cons] at h
      obtain ⟨houter, hheight, hinner, -⟩ := h
      exact alike_hollow (alike_cylinderCall houter hheight _ 1)
        (alike_cylinderCall hinner hheight _ 1)

/-- **Scripts in two units** match if the lengths of all solids do. -/
theorem forall₂_fragments_write {p : Parameters} {unit : LengthUnit} {solids : List Solid}
    (h : ∀ s ∈ solids, ∀ d ∈ unscaledLengths p s,
      R (hundredths (d * unit.factor) / 100) (hundredths (d * p.unit.factor) / 100)) :
    List.Forall₂ (Fragment.Matches R) (fragments (write { p with unit := unit } solids).toList)
      (fragments (write p solids).toList) := by
  rw [write, write, String.toList_ofList, String.toList_ofList, render, render, List.map_map,
    List.map_map]
  refine Alike.forall₂_fragments (.joinWith (by decide) (by decide) ?_)
  rw [List.forall₂_map_left_iff, List.forall₂_map_right_iff, List.forall₂_same]
  exact fun s hs => alike_statement fun d hd => alike_lengthText (h s hs d hd)

end Statements

end Alike

end SolidScene.Script
