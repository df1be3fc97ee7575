import SolidScene.Proofs.Script.Layout

/-!
# Comments and the ends of texts

Whether a text ends inside a comment is settled by its slashes, stars and line breaks alone:
`regionAfter` follows them from left to right.  Where no block comment is open at the end of a text,
a line break cuts it off from whatever follows (`tokenize_append_newline`); where no comment is open
at all, the layout of a script needs no line break (`tokenize_append_of_layout`).
-/

namespace SolidScene.Script

open Text

/-! ### Where a text ends -/

/-- The parts that a script is made of. -/
inductive Region
  | code
  | lineComment
  | blockComment
  deriving DecidableEq, Repr

/-- The region that the end of a text is in, when its start is in a given one. -/
def regionAfter : Region → List Char → Region
  | region, [] => region
  | .code, '/' :: '/' :: cs => regionAfter .lineComment cs
  | .code, '/' :: '*' :: cs => regionAfter .blockComment cs
  | .code, _ :: cs => regionAfter .code cs
  | .lineComment, '\n' :: cs => regionAfter .code cs
  | .lineComment, _ :: cs => regionAfter .lineComment cs
  | .blockComment, '*' :: '/' :: cs => regionAfter .code cs
  | .blockComment, _ :: cs => regionAfter .blockComment cs

theorem regionAfter_cons_of_ne {c : Char} (h : c ≠ '/') (cs : List Char) :
    regionAfter .code (c :: cs) = regionAfter .code cs := by
  simp [regionAfter, h]

theorem regionAfter_append_of_ne {taken : List Char} (h : ∀ c ∈ taken, c ≠ '/')
    (cs : List Char) : regionAfter .code (taken ++ cs) = regionAfter .code cs := by
  induction taken with
  | nil => rfl
  | cons c taken ih =>
    rw [List.cons_append, regionAfter_cons_of_ne (h c List.mem_cons_self),
      ih fun d hd => h d (List.mem_cons_of_mem _ hd)]

/-- A text that ends outside block comments, read from code on. -/
def EndsOutsideComment (cs : List Char) : Prop := regionAfter .code cs ≠ .blockComment

instance (cs : List Char) : Decidable (EndsOutsideComment cs) :=
  inferInstanceAs (Decidable (_ ≠ _))

theorem endsOutsideComment_afterLineComment {cs : List Char}
    (h : regionAfter .lineComment cs ≠ .blockComment) :
    EndsOutsideComment (afterLineComment cs) := by
  induction cs with
  | nil => exact nofun
  | cons c cs ih =>
    by_cases hc : c = '\n'
    · subst hc
      rw [regionAfter] at h
      rw [EndsOutsideComment, afterLineComment, List.dropWhile_cons_of_neg (by decide),
        regionAfter_cons_of_ne (by decide)]
      exact h
    · rw [afterLineComment, List.dropWhile_cons_of_pos (by simpa using hc)]
      refine ih ?_
      simpa [regionAfter, hc] using h

/-- A block comment that is closed within a text is closed at the same place whatever follows. -/
theorem afterBlockComment_append {cs : List Char}
    (h : regionAfter .blockComment cs ≠ .blockComment) (rest : List Char) :
    afterBlockComment (cs ++ rest) = afterBlockComment cs ++ rest ∧
      regionAfter .code (afterBlockComment cs) = regionAfter .blockComment cs := by
  fun_induction afterBlockComment cs with
  | case1 cs => exact ⟨rfl, by rw [regionAfter]⟩
  | case2 c cs hclose ih =>
    have hopen : regionAfter .blockComment (c :: cs) = regionAfter .blockComment cs := by
      rw [regionAfter]
      exact fun ds hc hcs => hclose ds hc hcs
    rw [hopen] at h
    obtain ⟨happend, hregion⟩ := ih h
    refine ⟨?_, hregion.trans hopen.symm⟩
    -- The last character cannot close a comment with what follows the text: it would be open.
    cases cs with
    | nil => exact absurd rfl h
    | cons d cs =>
      rw [List.cons_append, afterBlockComment]
      · exact happend
      · intro ds hc hcs
        obtain ⟨rfl, -⟩ := List.cons.inj hcs
        exact hclose cs hc rfl
  | case3 => exact absurd rfl h

theorem afterLineComment_append (cs rest : List Char) :
    afterLineComment (cs ++ '\n' :: rest) = afterLineComment cs ++ '\n' :: rest :=
  dropWhile_append_of_head (by simp) cs

/-! ### Cutting a text at a line break -/

/-- Text after which neither a name nor a numeral goes on. -/
def Breaks (rest : List Char) : Prop := EndsWord rest ∧ Decimal.Unsigned rest

theorem breaks_cons {c : Char} (h : startsWord c = false ∧ c.isDigit = false ∧ c ≠ '.')
    (hsign : c ≠ '+' ∧ c ≠ '-') (rest : List Char) : Breaks (c :: rest) := by
  refine ⟨endsWord_cons h rest, fun d hd => ?_⟩
  obtain rfl := Option.some.inj hd
  exact hsign

theorem startsNumber_append_iff {rest : List Char} (h : Breaks rest) (c : Char)
    (cs : List Char) : startsNumber c (cs ++ rest) = startsNumber c cs := by
  cases cs with
  | nil =>
    cases rest with
    | nil => rfl
    | cons d rest =>
      have hd := (h.1 d rfl).2.1
      simp [startsNumber, hd]
  | cons d cs => rfl

theorem regionAfter_dropWhile_continuesWord (cs : List Char) :
    regionAfter .code (cs.dropWhile continuesWord) = regionAfter .code cs := by
  have hslash : ∀ c ∈ cs.takeWhile continuesWord, c ≠ '/' := by
    rintro c hc rfl
    exact absurd (List.mem_takeWhile_imp hc) (by decide)
  rw [← regionAfter_append_of_ne hslash, List.takeWhile_append_dropWhile]

theorem regionAfter_scan (cs : List Char) :
    regionAfter .code (Decimal.scan cs).2 = regionAfter .code cs := by
  obtain ⟨taken, hcs, htaken⟩ := Decimal.takesNumeral_scan cs
  have hslash : ∀ c ∈ taken, c ≠ '/' := by
    rintro c hc rfl
    exact absurd (htaken _ hc) (by decide)
  have hregion := regionAfter_append_of_ne hslash (Decimal.scan cs).2
  rw [← hcs] at hregion
  exact hregion.symm

/-- A lexeme other than a comment ends where a name or a numeral ends, and has no part in the
comments of what is left. -/
theorem lexeme_append_of_ne {c : Char} (hc : c ≠ '/') {rest : List Char} (h : Breaks rest)
    (cs : List Char) :
    lexeme c (cs ++ rest) = ((lexeme c cs).1, (lexeme c cs).2 ++ rest) ∧
      regionAfter .code (lexeme c cs).2 = regionAfter .code (c :: cs) := by
  have hregion := regionAfter_cons_of_ne hc cs
  by_cases hblank : isBlank c
  · simp [lexeme_of_isBlank hblank, hregion]
  cases hmark : punctuation? c with
  | some t => simp [lexeme_of_punctuation? hmark, hregion]
  | none =>
    by_cases hnumber : startsNumber c cs
    · have hscan : Decimal.scan (c :: cs ++ rest) = _ :=
        Decimal.scan_append h.1.endsNumeral (Or.inr h.2)
      have hnumber' : startsNumber c (cs ++ rest) := by rwa [startsNumber_append_iff h]
      rw [lexeme_of_startsNumber hnumber, lexeme_of_startsNumber hnumber', ← List.cons_append,
        hscan, regionAfter_scan]
      exact ⟨rfl, rfl⟩
    · by_cases hword : startsWord c
      · rw [lexeme_of_startsWord hword, lexeme_of_startsWord hword, hregion,
          takeWhile_append_of_head h.1.continuesWord, dropWhile_append_of_head h.1.continuesWord,
          regionAfter_dropWhile_continuesWord]
        exact ⟨rfl, rfl⟩
      · rw [Bool.not_eq_true] at hblank hnumber hword
        have hnumber' : startsNumber c (cs ++ rest) = false := by rwa [startsNumber_append_iff h]
        rw [lexeme_other hblank (comment?_of_ne hc _) hmark hnumber hword,
          lexeme_other hblank (comment?_of_ne hc _) hmark hnumber' hword, hregion]
        exact ⟨rfl, rfl⟩

/-- Each lexeme ends where a name or a numeral ends, in a text whose end is in one of the regions
`R`, none of them a block comment; where line comments end is left open. -/
theorem lexeme_append {R : Region → Prop} (hR : ¬ R .blockComment) {c : Char} {cs rest : List Char}
    (hrest : Breaks rest) (hslash : c = '/' → cs ≠ [])
    (hline : ∀ {ds : List Char}, R (regionAfter .lineComment ds) →
      afterLineComment (ds ++ rest) = afterLineComment ds ++ rest ∧
        R (regionAfter .code (afterLineComment ds)))
    (h : R (regionAfter .code (c :: cs))) :
    lexeme c (cs ++ rest) = ((lexeme c cs).1, (lexeme c cs).2 ++ rest) ∧
      R (regionAfter .code (lexeme c cs).2) := by
  by_cases hc : c = '/'
  · subst hc
    -- What a slash starts is settled by the character after it.
    rcases cs with _ | ⟨d, cs⟩
    · exact absurd rfl (hslash rfl)
    by_cases hcomment : d = '/'
    · subst hcomment
      obtain ⟨happend, hregion⟩ := hline h
      rw [List.cons_append, lexeme_lineComment, lexeme_lineComment, happend]
      exact ⟨rfl, hregion⟩
    by_cases hblock : d = '*'
    · subst hblock
      have hclosed : regionAfter .blockComment cs ≠ .blockComment := fun heq => hR (heq ▸ h)
      obtain ⟨happend, hregion⟩ := afterBlockComment_append hclosed rest
      rw [List.cons_append, lexeme_blockComment, lexeme_blockComment, happend]
      exact ⟨rfl, hregion.symm ▸ h⟩
    have hother (ds : List Char) : lexeme '/' (d :: ds) = (some .other, d :: ds) :=
      lexeme_other rfl (by simp [comment?, hcomment, hblock]) rfl rfl rfl
    rw [List.cons_append, hother, hother]
    refine ⟨rfl, ?_⟩
    simpa [regionAfter, hcomment, hblock] using h
  · obtain ⟨happend, hregion⟩ := lexeme_append_of_ne hc hrest cs
    exact ⟨happend, hregion.symm ▸ h⟩

/-- A text is cut into tokens by itself if each lexeme in it is the same with what follows. -/
theorem tokenize_append {P : List Char → Prop} {rest : List Char}
    (hstep : ∀ {c : Char} {cs : List Char}, P (c :: cs) →
      lexeme c (cs ++ rest) = ((lexeme c cs).1, (lexeme c cs).2 ++ rest) ∧ P (lexeme c cs).2)
    {cs : List Char} (h : P cs) : tokenize (cs ++ rest) = tokenize cs ++ tokenize rest := by
  induction hlength : cs.length using Nat.strongRecOn generalizing cs with
  | ind n ih =>
    cases cs with
    | nil => rw [List.nil_append, tokenize_nil, List.nil_append]
    | cons c cs =>
      obtain ⟨happend, hends⟩ := hstep h
      have hlt : (lexeme c cs).2.length < n := by
        rw [← hlength]
        exact Nat.lt_succ_of_le (length_lexeme_le c cs)
      rw [List.cons_append, tokenize_cons, happend, ih _ hlt hends rfl, tokenize_cons c cs,
        List.append_assoc]

/-- At the end of a text outside block comments, a line break ends the last lexeme. -/
theorem lexeme_append_newline {c : Char} {cs : List Char} (h : EndsOutsideComment (c :: cs))
    (rest : List Char) :
    lexeme c (cs ++ '\n' :: rest) = ((lexeme c cs).1, (lexeme c cs).2 ++ '\n' :: rest) ∧
      EndsOutsideComment (lexeme c cs).2 := by
  by_cases hslash : c = '/' ∧ cs = []
  · -- A slash and a line break start nothing.
    obtain ⟨rfl, rfl⟩ := hslash
    exact ⟨rfl, nofun⟩
  · exact lexeme_append (R := (· ≠ .blockComment)) (fun hne => hne rfl)
      (breaks_cons (by decide) (by decide) rest) (fun hc hcs => hslash ⟨hc, hcs⟩)
      (fun h => ⟨afterLineComment_append _ rest, endsOutsideComment_afterLineComment h⟩) h

/-- **A line break cuts a text into two texts**, unless it stands in a block comment. -/
theorem tokenize_append_newline {cs : List Char} (h : EndsOutsideComment cs)
    (rest : List Char) :
    tokenize (cs ++ '\n' :: rest) = tokenize cs ++ tokenize rest := by
  rw [tokenize_append (fun h => lexeme_append_newline h rest) h, tokenize_blank_cons (by decide)]

/-! ### Text after a layout -/

theorem regionAfter_lineComment_append {body : List Char} (h : '\n' ∉ body) (cs : List Char) :
    regionAfter .lineComment (body ++ cs) = regionAfter .lineComment cs := by
  induction body with
  | nil => rfl
  | cons c body ih =>
    have hc : c ≠ '\n' := fun heq => h (heq ▸ List.mem_cons_self)
    have hbody : '\n' ∉ body := fun hmem => h (List.mem_cons_of_mem _ hmem)
    rw [List.cons_append, ← ih hbody]
    simp [regionAfter]

theorem regionAfter_blockComment_append {body : List Char} (h : ¬ ['*', '/'] <:+: body)
    (cs : List Char) : regionAfter .blockComment (body ++ '*' :: '/' :: cs) =
      regionAfter .code cs := by
  induction body with
  | nil => rfl
  | cons c body ih =>
    have hrest := ih fun hinfix => h (List.infix_cons hinfix)
    by_cases hc : c = '*'
    · subst hc
      cases body with
      | nil => rfl
      | cons d body =>
        have hd : d ≠ '/' := by
          rintro rfl
          exact h ⟨[], body, rfl⟩
        simpa [regionAfter, hd] using hrest
    · simpa [regionAfter, hc] using hrest

/-- A spelling has no part in a comment. -/
theorem Spelling.regionAfter_append {t : Token} {spelling : List Char} (h : Spelling t spelling)
    (cs : List Char) : regionAfter .code (spelling ++ cs) = regionAfter .code cs := by
  refine regionAfter_append_of_ne ?_ cs
  rintro c hc rfl
  cases h with
  | mark h =>
    rw [← List.mem_singleton.1 hc] at h
    cases h
  | word hstarts hcontinues =>
    rcases List.mem_cons.1 hc with rfl | hc
    · exact absurd hstarts (by decide)
    · exact absurd (hcontinues _ hc) (by decide)
  | @number first digits d _ hd =>
    obtain ⟨taken, htaken, hnumeral⟩ := Decimal.takesNumeral_scan (first :: digits)
    rw [Decimal.scan_eq_of_read? hd, List.append_nil] at htaken
    rw [htaken] at hc
    exact absurd (hnumeral _ hc) (by decide)

/-- **A layout that ends in code is read by itself**, if its last token is a mark: what follows
neither goes on with the token nor stands in a comment. -/
theorem tokenize_append_of_layout {ts : List Token} {cs : List Char} (h : Layout ts cs)
    (hcode : regionAfter .code cs = .code) (hlast : ∀ t ∈ ts.getLast?, t.isWordlike = false)
    (rest : List Char) : tokenize (cs ++ rest) = ts ++ tokenize rest := by
  induction h with
  | nil => rfl
  | @lastComment body hbody =>
    have hline : regionAfter .code ('/' :: '/' :: body) = .lineComment := by
      simpa [regionAfter] using regionAfter_lineComment_append hbody []
    rw [hline] at hcode
    cases hcode
  | @blank c ts cs hc _ ih =>
    have hslash : c ≠ '/' := by
      rintro rfl
      exact absurd hc (by decide)
    rw [regionAfter_cons_of_ne hslash] at hcode
    rw [List.cons_append, tokenize_blank_cons hc, ih hcode hlast]
  | @lineComment body ts cs hbody _ ih =>
    have hline : regionAfter .code ('/' :: '/' :: (body ++ '\n' :: cs)) = regionAfter .code cs := by
      simpa [regionAfter] using regionAfter_lineComment_append hbody ('\n' :: cs)
    rw [hline] at hcode
    rw [List.cons_append, List.cons_append, List.append_assoc, List.cons_append,
      tokenize_lineComment hbody, tokenize_blank_cons (by decide), ih hcode hlast]
  | @blockComment body ts cs hbody _ ih =>
    have hblock : regionAfter .code ('/' :: '*' :: (body ++ '*' :: '/' :: cs)) =
        regionAfter .code cs := by
      simpa [regionAfter] using regionAfter_blockComment_append hbody cs
    rw [hblock] at hcode
    rw [List.cons_append, List.cons_append, List.append_assoc, List.cons_append, List.cons_append,
      tokenize_blockComment hbody, ih hcode hlast]
  | @token t spelling ts cs ht hapart hcs ih =>
    rw [ht.regionAfter_append] at hcode
    have hapart' : t.isWordlike → EndsWord (cs ++ rest) := by
      intro hword
      -- A wordlike token is not the last one, so what it must be kept apart from is in the layout.
      cases cs with
      | nil =>
        obtain rfl : ts = [] := by simpa using (tokenize_of_layout hcs).symm
        rw [hlast t rfl] at hword
        cases hword
      | cons c cs => exact hapart hword
    have hlast' : ∀ u ∈ ts.getLast?, u.isWordlike = false := by
      intro u hu
      refine hlast u ?_
      cases ts with
      | nil => cases hu
      | cons v ts => rwa [List.getLast?_cons_cons]
    rw [List.append_assoc, tokenize_spelling_append ht hapart', ih hcode hlast']
    rfl

end SolidScene.Script
