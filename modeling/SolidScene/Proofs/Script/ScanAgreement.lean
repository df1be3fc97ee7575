import Mathlib.Data.List.Basic
import SolidScene.Proofs.Double.Canonical
import SolidScene.Proofs.Script.Denotation
import SolidScene.Proofs.Script.Scan

/-!
# Where scanning and reading agree

A `BareScript` is made of bare calls with unsigned literals, each with a semicolon after it, and of
white space.  Such a text is at once a layout of a script and a text whose yields are known.
`scan_eq_read` says that a scan, as far as its solids have a finite scale above zero, gives what
reading the text in millimeters gives, gathered by kind.
-/

namespace SolidScene.Script

open Text

/-- Bare calls, each before a semicolon, with white space around calls and semicolons. -/
inductive BareScript : List Char → Prop
  | blanks {blanks : List Char} (h : AllBlank blanks) : BareScript blanks
  | statement {before call after rest row : List Char} {kind : Kind} (hbefore : AllBlank before)
      (hcall : BareCall kind row call) (hafter : AllBlank after) (hrest : BareScript rest) :
      BareScript (before ++ (call ++ (after ++ ';' :: rest)))

/-! ### Bare calls as layouts -/

section Layouts

variable {ts : List Token} {cs : List Char}

theorem layout_allBlank {blanks : List Char} (h : AllBlank blanks) (hlayout : Layout ts cs) :
    Layout ts (blanks ++ cs) := by
  induction blanks with
  | nil => exact hlayout
  | cons c blanks ih =>
    obtain ⟨hc, hblanks⟩ := List.forall_mem_cons.1 h
    exact .blank hc (ih hblanks)

theorem layout_mark {blanks : List Char} (h : AllBlank blanks) {c : Char} {t : Token}
    (ht : punctuation? c = some t) (hlayout : Layout ts cs) :
    Layout (t :: ts) (blanks ++ c :: cs) :=
  layout_allBlank h (.mark ht hlayout)

theorem endsWord_blanks {blanks : List Char} (h : AllBlank blanks) {c : Char}
    (hc : startsWord c = false ∧ c.isDigit = false ∧ c ≠ '.') (cs : List Char) :
    EndsWord (blanks ++ c :: cs) := by
  cases blanks with
  | nil => exact endsWord_cons hc cs
  | cons blank blanks =>
    have hblank : isBlank blank := h blank List.mem_cons_self
    refine endsWord_cons ⟨?_, ?_, ?_⟩ _
    · by_contra hstarts
      rw [not_isBlank_of_startsWord (by simpa using hstarts)] at hblank
      contradiction
    · by_contra hdigit
      rw [not_isBlank_of_isDigit (by simpa using hdigit)] at hblank
      contradiction
    · rintro rfl
      contradiction

/-- A literal spells the number that it says. -/
theorem IsLiteral.spelling {row : List Char} (h : IsLiteral row) {d : Decimal}
    (hd : Decimal.scan row = (some d, [])) : Spelling (.number d) row := by
  have hread : Decimal.read? row = some d := by rw [Decimal.read?, hd]
  obtain ⟨c, row, rfl⟩ := List.exists_cons_of_ne_nil h.ne_nil
  refine .number ?_ hread
  by_cases hc : c = '.'
  · subst hc
    obtain ⟨x, hx, hdigit⟩ := h.digit
    have hrow : row ≠ [] := by
      rintro rfl
      rw [List.mem_singleton.1 hx] at hdigit
      contradiction
    obtain ⟨y, row, rfl⟩ := List.exists_cons_of_ne_nil hrow
    -- A point that comes first is the only one, so the next character is a digit.
    have hy : y ≠ '.' := by
      rintro rfl
      have hpoint := h.point
      simp only [List.count_cons_self] at hpoint
      omega
    have hnext := isDigit_of_isFigure (h.figures y (by simp)) hy
    simp [startsNumber, hnext]
  · have hdigit := isDigit_of_isFigure (h.figures c List.mem_cons_self) hc
    simp [startsNumber, hdigit]

theorem layout_literal {row : List Char} (h : IsLiteral row) {d : Decimal}
    (hd : Decimal.scan row = (some d, [])) (hend : EndsWord cs) (hlayout : Layout ts cs) :
    Layout (.number d :: ts) (row ++ cs) :=
  .token (h.spelling hd) (fun _ => hend) hlayout

/-- The start of a call: its name and the parenthesis. -/
theorem layout_call {name : String} (hname : isName name) {blanks : List Char}
    (h : AllBlank blanks) {pieces : List (List Char)}
    (hlayout : Layout ts (pieces.flatten ++ cs)) :
    Layout (.word name :: .openParen :: ts)
      ((name.toList :: blanks :: ['('] :: pieces).flatten ++ cs) := by
  have htext : (name.toList :: blanks :: ['('] :: pieces).flatten ++ cs =
      name.toList ++ (blanks ++ '(' :: (pieces.flatten ++ cs)) := by simp
  rw [htext]
  exact .word hname (endsWord_blanks h (by decide) _) (layout_mark h rfl hlayout)

/-- A name of one letter with an equals sign, and white space around both. -/
theorem layout_argument {letter : Char} (hletter : startsWord letter)
    {before between after : List Char} (hbefore : AllBlank before) (hbetween : AllBlank between)
    (hafter : AllBlank after) (hlayout : Layout ts cs) :
    Layout (.word (String.ofList [letter]) :: .equals :: ts)
      (before ++ letter :: (between ++ '=' :: (after ++ cs))) := by
  have hspelling : Spelling (.word (String.ofList [letter])) [letter] :=
    .word hletter fun _ h => absurd h List.not_mem_nil
  refine layout_allBlank hbefore ?_
  refine .token hspelling (fun _ => endsWord_blanks hbetween (by decide) _) ?_
  exact layout_mark hbetween rfl (layout_allBlank hafter hlayout)

end Layouts

/-- A bare call is a layout of a call that gives a solid of its kind the length of its literal. -/
theorem BareCall.exists_call {kind : Kind} {row text : List Char} (h : BareCall kind row text)
    {d : Decimal} (hd : Decimal.scan row = (some d, [])) :
    ∃ name arguments, kindOfCall? name = some kind ∧ length? kind arguments = some d.toFloat ∧
      depthOfArguments arguments ≤ 1 ∧
      ∀ ts cs, Layout ts cs → Layout (callTokens name arguments ++ ts) (text ++ cs) := by
  cases h with
  | @box a b c d' e first second third hblank hliteral =>
    simp only [List.forall_mem_cons] at hblank hliteral
    obtain ⟨ha, hb, hc, hd', he, -⟩ := hblank
    obtain ⟨hfirst, hsecond, hthird, -⟩ := hliteral
    obtain ⟨y, hy⟩ := hsecond.scan_eq
    obtain ⟨z, hz⟩ := hthird.scan_eq
    refine ⟨"cube", [⟨none, .vector [.number false d, .number false y, .number false z]⟩], rfl, ?_,
      ?_, fun ts cs hlayout => layout_call rfl ha ?_⟩
    · simp [length?, boxEdge?, namedValue?, positional?, edgeOfValue?, Value.toFloat?]
    · simp [depthOfArguments, depthOfItems, Value.depth]
    · simp only [List.flatten_cons, List.flatten_nil, List.append_assoc, List.cons_append,
        List.nil_append]
      refine layout_mark hb rfl ?_
      refine layout_literal hfirst hd (endsWord_cons (by decide) _) (.mark rfl ?_)
      refine layout_allBlank hc ?_
      refine layout_literal hsecond hy (endsWord_cons (by decide) _) (.mark rfl ?_)
      refine layout_allBlank hd' ?_
      refine layout_literal hthird hz (endsWord_cons (by decide) _) (.mark rfl ?_)
      exact layout_mark he rfl hlayout
  | @sphere a b c d' e first hblank hliteral =>
    simp only [List.forall_mem_cons] at hblank
    obtain ⟨ha, hb, hc, hd', he, -⟩ := hblank
    refine ⟨"sphere", [⟨some "r", .number false d⟩], rfl, ?_, ?_,
      fun ts cs hlayout => layout_call rfl ha ?_⟩
    · simp [length?, sphereRadius?, namedNumber?, namedValue?, Value.toFloat?]
    · simp [depthOfArguments, depthOfItems, Value.depth]
    · simp only [List.flatten_cons, List.flatten_nil, List.append_assoc, List.cons_append,
        List.nil_append]
      refine layout_argument rfl hb hc hd' ?_
      refine layout_literal hliteral hd (endsWord_blanks he (by decide) _) ?_
      exact layout_mark he rfl hlayout
  | @cylinder a b c d' e f g h first second hblank hliteral =>
    simp only [List.forall_mem_cons] at hblank hliteral
    obtain ⟨ha, hb, hc, hd', he, hf, hg, hh, -⟩ := hblank
    obtain ⟨hfirst, hsecond, -⟩ := hliteral
    obtain ⟨y, hy⟩ := hsecond.scan_eq
    refine ⟨"cylinder", [⟨some "r", .number false d⟩, ⟨some "h", .number false y⟩], rfl, ?_, ?_,
      fun ts cs hlayout => layout_call rfl ha ?_⟩
    · simp [length?, cylinderRadius?, namedNumber?, namedValue?, Value.toFloat?]
    · simp [depthOfArguments, depthOfItems, Value.depth]
    · simp only [List.flatten_cons, List.flatten_nil, List.append_assoc, List.cons_append,
        List.nil_append]
      refine layout_argument rfl hb hc hd' ?_
      refine layout_literal hfirst hd (endsWord_cons (by decide) _) (.mark rfl ?_)
      refine layout_argument rfl he hf hg ?_
      refine layout_literal hsecond hy (endsWord_blanks hh (by decide) _) ?_
      exact layout_mark hh rfl hlayout

/-! ### Bare scripts -/

theorem div_factor_millimeters (x : Float) : x / LengthUnit.millimeters.factor = x :=
  Double.div_one x

/-- Reading a call in millimeters keeps its solid if it is valid. -/
theorem denotedSolids_call_cons {kind : Kind} {name : String} {arguments : List Argument}
    {length : Float} (hname : kindOfCall? name = some kind)
    (hlength : length? kind arguments = some length) (script : List Statement) :
    denotedSolids LengthUnit.millimeters.factor (.call name arguments :: script) =
      ([(⟨kind, scaleOfLength kind length⟩ : Solid)].filter fun s => Solid.validScale s.scale) ++
        denotedSolids LengthUnit.millimeters.factor script := by
  have hcall : contribution LengthUnit.millimeters.factor name arguments [] =
      [(⟨kind, scaleOfLength kind length⟩ : Solid)].filter fun s => Solid.validScale s.scale := by
    simp only [contribution, hname, solid?, hlength, Option.bind_some, div_factor_millimeters]
    by_cases hvalid : Solid.validScale (scaleOfLength kind length)
    · simp [hvalid]
    · simp [hvalid]
  rw [denotedSolids, contributionsOf, Statement.contributions, hcall]
  rfl

/-- A bare script is a layout of a script that denotes the valid ones of some solids, and yields
these solids. -/
theorem BareScript.denotes {text : List Char} (h : BareScript text) :
    ∃ (script : List Statement) (found : List Solid), depthOf script ≤ 1 ∧
      Layout (tokensOf script) text ∧
      denotedSolids LengthUnit.millimeters.factor script =
        found.filter (fun s => Solid.validScale s.scale) ∧
      ∀ kind, Yields kind text (found.filter (·.kind = kind)) := by
  induction h with
  | @blanks blanks h =>
    refine ⟨[], [], Nat.zero_le 1, ?_, rfl, fun kind => ?_⟩
    · simpa [tokensOf] using layout_allBlank h Layout.nil
    · exact yields_of_avoids (avoids_of_allBlank h kind)
  | @statement before call after rest row kind hbefore hcall hafter hrest ih =>
    obtain ⟨script, found, hdepth, hlayout, hdenoted, hyields⟩ := ih
    obtain ⟨d, hd⟩ := hcall.isLiteral.scan_eq
    obtain ⟨name, arguments, hname, hlength, hshallow, hcallLayout⟩ := hcall.exists_call hd
    refine ⟨.call name arguments :: script, ⟨kind, scaleOfLength kind d.toFloat⟩ :: found, ?_, ?_,
      ?_, fun other => ?_⟩
    · rw [depthOf, Nat.max_le]
      exact ⟨hshallow, hdepth⟩
    · rw [tokensOf, Statement.tokens, List.append_assoc]
      exact layout_allBlank hbefore (hcallLayout _ _ (layout_mark hafter rfl hlayout))
    · rw [denotedSolids_call_cons hname hlength, hdenoted, ← List.filter_append]
      rfl
    · have hbegin : Yields other before [] :=
        yields_of_avoids (avoids_of_allBlank hbefore other)
      have hend : Yields other after [] := yields_of_avoids (avoids_of_allBlank hafter other)
      have hsemicolon : Yields other [';'] [] :=
        yields_of_avoids (avoids_of_not_mem (by decide) (by decide) other)
      have hfilter : (⟨kind, scaleOfLength kind d.toFloat⟩ :: found).filter (·.kind = other) =
          (if kind = other then [⟨kind, scaleOfLength kind d.toFloat⟩] else []) ++
            found.filter (·.kind = other) := by
        by_cases hkind : kind = other
        · simp [hkind]
        · simp [hkind]
      rw [hfilter]
      refine hbegin.nothing_append ((yields_bareCall hcall hd other).append ?_)
      exact hend.nothing_append (hsemicolon.nothing_append (hyields other))

/-- **Scanning and reading agree on bare scripts.** -/
theorem scan_eq_read {text : String} (h : BareScript text.toList) :
    (scan text).filter (fun s => Solid.validScale s.scale) =
      Kind.all.flatMap fun kind => (read .millimeters text).filter (·.kind = kind) := by
  obtain ⟨script, found, hdepth, hlayout, hdenoted, hyields⟩ := h.denotes
  rw [read_of_layout .millimeters (Nat.le_trans hdepth (by decide)) hlayout, hdenoted, scan,
    List.filter_flatMap]
  refine List.flatMap_congr fun kind _ => ?_
  rw [(hyields kind).scanKind_eq, List.filter_comm]

/-- A script with white space of several kinds, with literals that have no digit on one side of the
point, and with a radius of zero, which reading drops. -/
def threeCalls : String := "sphere ( r = 1.4 ) ;\u2003cube([2.,2,\u00a0.5]);\ncylinder(r=0,\nh=3);"

theorem bareScript_threeCalls : BareScript threeCalls.toList := by
  have hsphere := @BareCall.sphere [' '] [' '] [' '] [' '] [' '] ['1', '.', '4'] (by decide)
    (by decide)
  have hcube := @BareCall.box [] [] [] ['\u00a0'] [] ['2', '.'] ['2'] ['.', '5'] (by decide)
    (by decide)
  have hcylinder := @BareCall.cylinder [] [] [] [] ['\n'] [] [] [] ['0'] ['3'] (by decide)
    (by decide)
  have hblank : AllBlank ['\u2003'] := by decide
  have hbreak : AllBlank ['\n'] := by decide
  have hscript := BareScript.statement allBlank_nil hsphere (by decide : AllBlank [' '])
    (.statement hblank hcube allBlank_nil
      (.statement hbreak hcylinder allBlank_nil (.blanks allBlank_nil)))
  exact hscript

theorem scan_eq_read_threeCalls :
    BareScript threeCalls.toList ∧
      (scan threeCalls).filter (fun s => Solid.validScale s.scale) =
        Kind.all.flatMap fun kind => (read .millimeters threeCalls).filter (·.kind = kind) :=
  ⟨bareScript_threeCalls, scan_eq_read bareScript_threeCalls⟩

end SolidScene.Script
