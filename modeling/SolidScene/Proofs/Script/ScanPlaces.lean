import SolidScene.Proofs.Double.Decimal
import SolidScene.Proofs.Script.ScanNumber

/-!
# Where a scan finds solids

A scan of a text for one kind lists a solid for each place at which a call stands that the pattern
of the kind takes, in the order of the places (`Listing`).  Two such calls never overlap, because
the first letter of a keyword occurs nowhere else in a call, so the same list comes of passing
through the text once and going on after each call that is found (`Sweeps`).
-/

namespace SolidScene.Script

open Text

/-! ### The calls that a pattern takes -/

section Taken

variable {pattern : Pattern} {text : List Char} {rows : List (List Char)} {c : Char}

theorem eq_append_of_after? {start rest : List Char} (h : after? start text = some rest) :
    text = start ++ rest := by
  fun_induction after? start text with
  | case1 text =>
    obtain rfl := Option.some.inj h
    rfl
  | case2 => cases h
  | case3 c start text ih => rw [ih h, List.cons_append]
  | case4 => cases h

theorem exists_of_match?_exactly {start : List Char}
    (h : Pattern.match? (.exactly start :: pattern) text = some rows) :
    ∃ rest, text = start ++ rest ∧ pattern.match? rest = some rows := by
  obtain ⟨rest, hrest, hmatch⟩ := Option.bind_eq_some_iff.1 h
  exact ⟨rest, eq_append_of_after? hrest, hmatch⟩

theorem exists_of_match?_blanks (h : Pattern.match? (.blanks :: pattern) text = some rows) :
    ∃ blanks rest, AllBlank blanks ∧ text = blanks ++ rest ∧ pattern.match? rest = some rows :=
  ⟨text.takeWhile isBlank, skipBlanks text, fun _ hc => List.mem_takeWhile_imp hc,
    List.takeWhile_append_dropWhile.symm, h⟩

theorem exists_of_match?_figures (h : Pattern.match? (.figures :: pattern) text = some rows) :
    ∃ row others rest, IsRun row ∧ rows = row :: others ∧ text = row ++ rest ∧
      pattern.match? rest = some others := by
  rw [Pattern.match?] at h
  split at h
  · cases h
  · next hne =>
    obtain ⟨others, hothers, rfl⟩ := Option.map_eq_some_iff.1 h
    refine ⟨_, others, _, ⟨fun _ hc => List.mem_takeWhile_imp hc, ?_⟩, rfl,
      List.takeWhile_append_dropWhile.symm, hothers⟩
    rwa [List.isEmpty_iff] at hne

theorem exists_of_match?_mark
    (h : Pattern.match? (.blanks :: .exactly [c] :: pattern) text = some rows) :
    ∃ blanks rest, AllBlank blanks ∧ text = blanks ++ c :: rest ∧
      pattern.match? rest = some rows := by
  obtain ⟨blanks, after, hblanks, htext, hafter⟩ := exists_of_match?_blanks h
  obtain ⟨rest, hrest, hmatch⟩ := exists_of_match?_exactly hafter
  exact ⟨blanks, rest, hblanks, htext.trans (congrArg (blanks ++ ·) hrest), hmatch⟩

theorem exists_of_match?_run
    (h : Pattern.match? (.blanks :: .figures :: pattern) text = some rows) :
    ∃ blanks row others rest, AllBlank blanks ∧ IsRun row ∧ rows = row :: others ∧
      text = blanks ++ (row ++ rest) ∧ pattern.match? rest = some others := by
  obtain ⟨blanks, after, hblanks, htext, hafter⟩ := exists_of_match?_blanks h
  obtain ⟨row, others, rest, hrow, hrows, hrest, hmatch⟩ := exists_of_match?_figures hafter
  exact ⟨blanks, row, others, rest, hblanks, hrow, hrows,
    htext.trans (congrArg (blanks ++ ·) hrest), hmatch⟩

/-- What a pattern takes is a call. -/
theorem exists_patternCall {kind : Kind} (h : (patternOf kind).match? text = some rows) :
    ∃ row others call rest, rows = row :: others ∧ text = call ++ rest ∧
      PatternCall kind row call := by
  rw [patternOf_eq] at h
  obtain ⟨text₁, e₁, h⟩ := exists_of_match?_exactly h
  cases kind with
  | box =>
    rw [argumentPattern] at h
    obtain ⟨a, text₂, ha, e₂, h⟩ := exists_of_match?_mark h
    obtain ⟨b, text₃, hb, e₃, h⟩ := exists_of_match?_mark h
    obtain ⟨first, _, text₄, hfirst, hrows, e₄, h⟩ := exists_of_match?_figures h
    obtain ⟨text₅, e₅, h⟩ := exists_of_match?_exactly h
    obtain ⟨c, second, _, text₆, hc, hsecond, -, e₆, h⟩ := exists_of_match?_run h
    obtain ⟨text₇, e₇, h⟩ := exists_of_match?_exactly h
    obtain ⟨d, third, _, text₈, hd, hthird, -, e₈, h⟩ := exists_of_match?_run h
    obtain ⟨text₉, e₉, h⟩ := exists_of_match?_exactly h
    obtain ⟨e, rest, he, e₁₀, -⟩ := exists_of_match?_mark h
    refine ⟨first, _, _, rest, hrows, ?_, @PatternCall.box a b c d e first second third ?_ ?_⟩
    · rw [e₁, e₂, e₃, e₄, e₅, e₆, e₇, e₈, e₉, e₁₀]
      change "cube".toList ++ _ = _
      generalize "cube".toList = word
      simp only [List.flatten_cons, List.flatten_nil, List.append_assoc, List.cons_append,
        List.nil_append]
    · simp [ha, hb, hc, hd, he]
    · simp [hfirst, hsecond, hthird]
  | sphere =>
    rw [argumentPattern] at h
    obtain ⟨a, text₂, ha, e₂, h⟩ := exists_of_match?_mark h
    obtain ⟨b, text₃, hb, e₃, h⟩ := exists_of_match?_mark h
    obtain ⟨c, text₄, hc, e₄, h⟩ := exists_of_match?_mark h
    obtain ⟨d, first, _, text₅, hd, hfirst, hrows, e₅, h⟩ := exists_of_match?_run h
    obtain ⟨e, rest, he, e₆, -⟩ := exists_of_match?_mark h
    refine ⟨first, _, _, rest, hrows, ?_, @PatternCall.sphere a b c d e first ?_ hfirst⟩
    · rw [e₁, e₂, e₃, e₄, e₅, e₆]
      change "sphere".toList ++ _ = _
      generalize "sphere".toList = word
      simp only [List.flatten_cons, List.flatten_nil, List.append_assoc, List.cons_append,
        List.nil_append]
    · simp [ha, hb, hc, hd, he]
  | cylinder =>
    rw [argumentPattern] at h
    obtain ⟨a, text₂, ha, e₂, h⟩ := exists_of_match?_mark h
    obtain ⟨b, text₃, hb, e₃, h⟩ := exists_of_match?_mark h
    obtain ⟨c, text₄, hc, e₄, h⟩ := exists_of_match?_mark h
    obtain ⟨d, first, _, text₅, hd, hfirst, hrows, e₅, h⟩ := exists_of_match?_run h
    obtain ⟨text₆, e₆, h⟩ := exists_of_match?_exactly h
    obtain ⟨e, text₇, he, e₇, h⟩ := exists_of_match?_mark h
    obtain ⟨f, text₈, hf, e₈, h⟩ := exists_of_match?_mark h
    obtain ⟨g, second, _, text₉, hg, hsecond, -, e₉, h⟩ := exists_of_match?_run h
    obtain ⟨i, rest, hi, e₁₀, -⟩ := exists_of_match?_mark h
    refine ⟨first, _, _, rest, hrows, ?_,
      @PatternCall.cylinder a b c d e f g i first second ?_ ?_⟩
    · rw [e₁, e₂, e₃, e₄, e₅, e₆, e₇, e₈, e₉, e₁₀]
      change "cylinder".toList ++ _ = _
      generalize "cylinder".toList = word
      simp only [List.flatten_cons, List.flatten_nil, List.append_assoc, List.cons_append,
        List.nil_append]
    · simp [ha, hb, hc, hd, he, hf, hg, hi]
    · simp [hfirst, hsecond]

end Taken

/-! ### The solid of a call -/

/-- What a call of a kind with a given first row comes to: the solid that the longest literal at the
start of the row makes, or nothing. -/
inductive Reports (kind : Kind) (row : List Char) : List Solid → Prop
  | solid {literal : List Char} {d : Decimal} (hlongest : LongestLiteral row literal)
      (hspells : Spells literal d) : Reports kind row [⟨kind, scaleOfLength kind d.toFloat⟩]
  | nothing (h : ¬ StartsWithNumber row) : Reports kind row []

section Calls

variable {kind : Kind} {row call rest text : List Char} {s : Solid}

theorem PatternCall.isRun (h : PatternCall kind row call) : IsRun row := by
  cases h with
  | box _ hrun => exact hrun _ List.mem_cons_self
  | sphere _ hrun => exact hrun
  | cylinder _ hrun => exact hrun _ List.mem_cons_self

theorem reports_iff (hrow : IsRun row) {found : List Solid} :
    Reports kind row found ↔ found = (solidOfRows? kind [row]).toList := by
  have hsolid (o : Option Decimal) (h : (Decimal.scan row).1 = o) :
      solidOfRows? kind [row] = o.map fun d => ⟨kind, scaleOfLength kind d.toFloat⟩ := by
    rw [← h]
    rfl
  obtain ⟨literal, d, hlongest, hspells, hscan⟩ | ⟨hnone, hscan⟩ := longestLiteral_or hrow.figures
  · rw [hsolid _ hscan]
    constructor
    · rintro (⟨hlongest', hspells'⟩ | hnone)
      · obtain rfl := hlongest.unique hlongest'
        have hsame := (hspells'.scan_eq hlongest'.isLiteral).symm.trans
          (hspells.scan_eq hlongest.isLiteral)
        cases hsame
        rfl
      · exact absurd (.of_literal hlongest.isLiteral hlongest.starts) hnone
    · rintro rfl
      exact .solid hlongest hspells
  · rw [hsolid _ hscan]
    constructor
    · rintro (⟨hlongest, -⟩ | -)
      · exact absurd (.of_literal hlongest.isLiteral hlongest.starts) hnone
      · rfl
    · rintro rfl
      exact .nothing hnone

theorem Reports.exists_literal (h : Reports kind row [s]) :
    ∃ literal d, LongestLiteral row literal ∧ Spells literal d ∧
      s = ⟨kind, scaleOfLength kind d.toFloat⟩ := by
  cases h with
  | solid hlongest hspells => exact ⟨_, _, hlongest, hspells, rfl⟩

theorem exists_reports (hrow : IsRun row) (h : StartsWithNumber row) (kind : Kind) :
    ∃ s, Reports kind row [s] := by
  obtain ⟨literal, d, hlongest, hspells, -⟩ | ⟨hnone, -⟩ := longestLiteral_or hrow.figures
  · exact ⟨_, .solid hlongest hspells⟩
  · exact absurd h hnone

/-- The places of a call yield what it comes to, and nothing else. -/
theorem PatternCall.scanKind_append (h : PatternCall kind row call) {found : List Solid}
    (hfound : Reports kind row found) (rest : List Char) :
    scanKind kind (call ++ rest) = found ++ scanKind kind rest := by
  obtain rfl := (reports_iff h.isRun).1 hfound
  obtain ⟨arguments, rfl, havoids, hmatch⟩ := h.exists_arguments
  refine yields_keyword (fun more => ?_) (havoids kind) rest
  obtain ⟨rows, hrows⟩ := hmatch more
  rw [hrows]
  rfl

theorem PatternCall.solidAt?_append (h : PatternCall kind row call) (rest : List Char) :
    solidAt? kind (call ++ rest) = solidOfRows? kind [row] := by
  obtain ⟨arguments, rfl, -, hmatch⟩ := h.exists_arguments
  obtain ⟨rows, hrows⟩ := hmatch rest
  rw [List.append_assoc, solidAt?_keyword, hrows]
  rfl

theorem PatternCall.ne_nil (h : PatternCall kind row call) : call ≠ [] := by
  cases h <;> exact List.cons_ne_nil _ _

/-- A solid is found at a place if and only if a call stands there that comes to it. -/
theorem solidAt?_eq_some_iff :
    solidAt? kind text = some s ↔
      ∃ row call rest, text = call ++ rest ∧ PatternCall kind row call ∧ Reports kind row [s] := by
  constructor
  · intro h
    obtain ⟨rows, hrows, hsolid⟩ := Option.bind_eq_some_iff.1 h
    obtain ⟨row, others, call, rest, rfl, rfl, hcall⟩ := exists_patternCall hrows
    refine ⟨row, call, rest, rfl, hcall, (reports_iff hcall.isRun).2 ?_⟩
    rw [← hcall.solidAt?_append rest, h]
    rfl
  · rintro ⟨row, call, rest, rfl, hcall, hreports⟩
    have hfound := (reports_iff hcall.isRun).1 hreports
    rw [hcall.solidAt?_append]
    cases hsolid : solidOfRows? kind [row] with
    | none =>
      rw [hsolid] at hfound
      cases hfound
    | some s' =>
      rw [hsolid] at hfound
      cases hfound
      rfl

theorem solidAt?_eq_none
    (h : ∀ row call rest, text = call ++ rest → ¬ PatternCall kind row call) :
    solidAt? kind text = none := by
  refine Option.eq_none_iff_forall_ne_some.2 fun s hs => ?_
  obtain ⟨row, call, rest, htext, hcall, -⟩ := solidAt?_eq_some_iff.1 hs
  exact h row call rest htext hcall

end Calls

/-! ### Place by place -/

/-- The solids of a kind in a text, with the places of their calls, the first place being `p`. -/
def placesFrom (kind : Kind) (p : Nat) : List Char → List (Nat × Solid)
  | [] => []
  | c :: cs => ((solidAt? kind (c :: cs)).map (Prod.mk p)).toList ++ placesFrom kind (p + 1) cs

section Places

variable {kind : Kind} {text : List Char}

theorem solidAt?_nil (kind : Kind) : solidAt? kind [] = none := by
  cases kind <;> rfl

theorem map_snd_placesFrom (kind : Kind) (p : Nat) (text : List Char) :
    (placesFrom kind p text).map Prod.snd = scanKind kind text := by
  induction text generalizing p with
  | nil => rfl
  | cons c cs ih =>
    rw [placesFrom, scanKind_cons, List.map_append, ih]
    cases solidAt? kind (c :: cs) <;> rfl

theorem mem_placesFrom {p q : Nat} {s : Solid} :
    (q, s) ∈ placesFrom kind p text ↔ ∃ i, q = p + i ∧ solidAt? kind (text.drop i) = some s := by
  induction text generalizing p with
  | nil =>
    refine ⟨fun h => absurd h List.not_mem_nil, fun ⟨i, _, h⟩ => ?_⟩
    rw [List.drop_nil, solidAt?_nil] at h
    cases h
  | cons c cs ih =>
    have hhere : (q, s) ∈ ((solidAt? kind (c :: cs)).map (Prod.mk p)).toList ↔
        q = p ∧ solidAt? kind (c :: cs) = some s := by
      cases solidAt? kind (c :: cs) with
      | none => simp
      | some s' => simp [eq_comm]
    rw [placesFrom, List.mem_append, hhere, ih]
    constructor
    · rintro (⟨rfl, h⟩ | ⟨i, rfl, h⟩)
      · exact ⟨0, rfl, h⟩
      · exact ⟨i + 1, Nat.add_right_comm p 1 i, h⟩
    · rintro ⟨_ | i, rfl, h⟩
      · exact Or.inl ⟨rfl, h⟩
      · exact Or.inr ⟨i, (Nat.add_right_comm p 1 i).symm, h⟩

theorem mem_placesFrom_zero {p : Nat} {s : Solid} :
    (p, s) ∈ placesFrom kind 0 text ↔ ∃ row call rest,
      text.drop p = call ++ rest ∧ PatternCall kind row call ∧ Reports kind row [s] := by
  rw [mem_placesFrom, ← solidAt?_eq_some_iff]
  constructor
  · rintro ⟨i, hi, h⟩
    rwa [hi, Nat.zero_add]
  · exact fun h => ⟨p, (Nat.zero_add p).symm, h⟩

theorem pairwise_placesFrom (kind : Kind) (p : Nat) (text : List Char) :
    (placesFrom kind p text).Pairwise fun a b => a.1 < b.1 := by
  induction text generalizing p with
  | nil => exact .nil
  | cons c cs ih =>
    rw [placesFrom]
    refine List.pairwise_append.2 ⟨?_, ih (p + 1), fun a ha b hb => ?_⟩
    · cases solidAt? kind (c :: cs) with
      | none => exact .nil
      | some s => exact List.pairwise_singleton _ _
    · obtain ⟨s, -, rfl⟩ := Option.map_eq_some_iff.1 (Option.mem_toList.1 ha)
      obtain ⟨i, hi, -⟩ := mem_placesFrom.1 (show (b.1, b.2) ∈ _ from hb)
      rw [hi]
      omega

end Places

/-- A list of the solids of a kind in a text, with the places of their calls: a place has an entry
if and only if a call stands there in whose first row a number can be read, and the entry has the
scale that the double nearest to this number gives. -/
structure Listing (kind : Kind) (text : List Char) (entries : List (Nat × Solid)) : Prop where
  increasing : entries.Pairwise fun a b => a.1 < b.1
  places : ∀ p, (∃ s, (p, s) ∈ entries) ↔ ∃ row call rest,
    text.drop p = call ++ rest ∧ PatternCall kind row call ∧ StartsWithNumber row
  scales : ∀ p s row call rest, (p, s) ∈ entries → text.drop p = call ++ rest →
    PatternCall kind row call → ∃ literal d,
      LongestLiteral row literal ∧ Spells literal d ∧ Double.IsNearestDouble d.toRat d.toFloat ∧
        s = ⟨kind, match kind with
          | .box => d.toFloat
          | .sphere => d.toFloat / 0.7
          | .cylinder => d.toFloat / 0.5⟩

theorem listing_placesFrom (kind : Kind) (text : List Char) :
    Listing kind text (placesFrom kind 0 text) where
  increasing := pairwise_placesFrom kind 0 text
  places p := by
    constructor
    · rintro ⟨s, hmem⟩
      obtain ⟨row, call, rest, htext, hcall, hreports⟩ := mem_placesFrom_zero.1 hmem
      obtain ⟨literal, d, hlongest, -⟩ := hreports.exists_literal
      exact ⟨row, call, rest, htext, hcall, .of_literal hlongest.isLiteral hlongest.starts⟩
    · rintro ⟨row, call, rest, htext, hcall, hnumber⟩
      obtain ⟨s, hreports⟩ := exists_reports hcall.isRun hnumber kind
      exact ⟨s, mem_placesFrom_zero.2 ⟨row, call, rest, htext, hcall, hreports⟩⟩
  scales p s row call rest hmem htext hcall := by
    obtain ⟨i, hi, hplace⟩ := mem_placesFrom.1 hmem
    rw [Nat.zero_add] at hi
    rw [← hi, htext, hcall.solidAt?_append] at hplace
    have hreports : Reports kind row [s] := by
      rw [reports_iff hcall.isRun, hplace]
      rfl
    obtain ⟨literal, d, hlongest, hspells, rfl⟩ := hreports.exists_literal
    refine ⟨literal, d, hlongest, hspells, Double.isNearestDouble_toFloat d, ?_⟩
    cases kind <;> rfl

/-! ### Passing through a text once -/

/-- Passing through a text: where a call stands it is taken as a whole and passing goes on after it,
and where none does one character is passed. -/
inductive Sweeps (kind : Kind) : List Char → List Solid → Prop
  | done : Sweeps kind [] []
  | call {row call rest : List Char} {found more : List Solid} (hcall : PatternCall kind row call)
      (hfound : Reports kind row found) (h : Sweeps kind rest more) :
      Sweeps kind (call ++ rest) (found ++ more)
  | pass {c : Char} {cs : List Char} {found : List Solid}
      (hnone : ∀ row call rest, c :: cs = call ++ rest → ¬ PatternCall kind row call)
      (h : Sweeps kind cs found) : Sweeps kind (c :: cs) found

theorem Sweeps.of_scanKind (kind : Kind) (text : List Char) :
    Sweeps kind text (scanKind kind text) := by
  induction hlength : text.length using Nat.strongRecOn generalizing text with
  | ind n ih =>
    by_cases hcall : ∃ row call rest, text = call ++ rest ∧ PatternCall kind row call
    · obtain ⟨row, call, rest, rfl, hcall⟩ := hcall
      have hshorter : rest.length < n := by
        have := List.length_pos_iff.2 hcall.ne_nil
        rw [List.length_append] at hlength
        omega
      have hfound : Reports kind row (solidOfRows? kind [row]).toList :=
        (reports_iff hcall.isRun).2 rfl
      rw [hcall.scanKind_append hfound]
      exact .call hcall hfound (ih _ hshorter rest rfl)
    · have hnone (row call rest : List Char) (htext : text = call ++ rest) :
          ¬ PatternCall kind row call := fun h => hcall ⟨row, call, rest, htext, h⟩
      cases text with
      | nil => exact .done
      | cons c cs =>
        rw [scanKind_cons, solidAt?_eq_none hnone]
        exact .pass hnone (ih _ (hlength ▸ Nat.lt_succ_self _) cs rfl)

theorem sweeps_iff {kind : Kind} {text : List Char} {found : List Solid} :
    Sweeps kind text found ↔ found = scanKind kind text := by
  constructor
  · intro h
    induction h with
    | done => rfl
    | call hcall hfound h ih => rw [hcall.scanKind_append hfound, ih]
    | @pass c cs found hnone h ih =>
      rw [scanKind_cons, solidAt?_eq_none hnone, ih]
      rfl
  · rintro rfl
    exact .of_scanKind kind text

/-- **A scan finds each call of its patterns once.** -/
theorem scan_places (text : String) :
    scan text = scanKind .box text.toList ++ scanKind .sphere text.toList ++
        scanKind .cylinder text.toList ∧
      ∀ kind, (∃ entries, scanKind kind text.toList = entries.map Prod.snd ∧
          Listing kind text.toList entries) ∧
        ∀ found, Sweeps kind text.toList found ↔ found = scanKind kind text.toList := by
  refine ⟨?_, fun kind => ⟨⟨placesFrom kind 0 text.toList, ?_, listing_placesFrom kind _⟩,
    fun found => sweeps_iff⟩⟩
  · simp [scan, Kind.all]
  · exact (map_snd_placesFrom kind 0 text.toList).symm

end SolidScene.Script
