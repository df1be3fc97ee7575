import SolidScene.Proofs.Script.Comment
import SolidScene.Script.Meaning

/-!
# Comments as white space

A text that ends in code, and not with a slash, may be cut off in the middle of a name or a numeral:
what follows goes on with neither of them if it starts with a blank or with a comment
(`tokenize_append_of_breaks`).  So it makes no difference which of the two it is.  A block comment
is read as a blank, a comment up to the end of its line as the line break, and a block comment that
does not end as the end of the script (`read_append_comment`).
-/

namespace SolidScene.Script

open Text

/-! ### What a lexeme leaves -/

theorem afterBlockComment_suffix (cs : List Char) : afterBlockComment cs <:+ cs := by
  fun_induction afterBlockComment cs with
  | case1 cs => exact (List.suffix_cons '/' cs).trans (List.suffix_cons '*' _)
  | case2 c cs _ ih => exact ih.trans (List.suffix_cons c cs)
  | case3 => exact List.suffix_rfl

theorem comment?_suffix {c : Char} {cs rest : List Char} (h : comment? c cs = some rest) :
    rest <:+ cs := by
  unfold comment? at h
  split at h
  · split at h
    · obtain rfl := Option.some.inj h
      exact (List.dropWhile_suffix _).trans (List.suffix_cons _ _)
    · obtain rfl := Option.some.inj h
      exact (afterBlockComment_suffix _).trans (List.suffix_cons _ _)
    · contradiction
  · contradiction

theorem scan_suffix_of_startsNumber {c : Char} {cs : List Char} (h : startsNumber c cs) :
    (Decimal.scan (c :: cs)).2 <:+ cs := by
  obtain ⟨taken, hcs, -⟩ := Decimal.takesNumeral_scan (c :: cs)
  have hsuffix : (Decimal.scan (c :: cs)).2 <:+ c :: cs := ⟨taken, hcs.symm⟩
  exact List.suffix_of_suffix_length_le hsuffix (List.suffix_cons c cs)
    (length_scan_le_of_startsNumber h)

/-- A lexeme is taken off the front of a text. -/
theorem lexeme_suffix (c : Char) (cs : List Char) : (lexeme c cs).2 <:+ cs := by
  unfold lexeme
  split
  · exact List.suffix_rfl
  · split
    · next h => exact comment?_suffix h
    · split
      · exact List.suffix_rfl
      · split
        · next h => exact scan_suffix_of_startsNumber h
        · split
          · exact List.dropWhile_suffix _
          · exact List.suffix_rfl

/-! ### Cutting a text anywhere in its code -/

/-- A line comment that ends within a text ends at the same place whatever follows. -/
theorem afterLineComment_append_of_closed {cs : List Char}
    (h : regionAfter .lineComment cs = .code) (rest : List Char) :
    afterLineComment (cs ++ rest) = afterLineComment cs ++ rest ∧
      regionAfter .code (afterLineComment cs) = .code := by
  induction cs with
  | nil => cases h
  | cons c cs ih =>
    by_cases hc : c = '\n'
    · subst hc
      rw [regionAfter] at h
      have hstops (ds : List Char) : afterLineComment ('\n' :: ds) = '\n' :: ds :=
        List.dropWhile_cons_of_neg (by decide)
      rw [List.cons_append, hstops, hstops, regionAfter_cons_of_ne (by decide)]
      exact ⟨rfl, h⟩
    · have hinside : regionAfter .lineComment (c :: cs) = regionAfter .lineComment cs := by
        simp [regionAfter]
      have hpasses (ds : List Char) : afterLineComment (c :: ds) = afterLineComment ds :=
        List.dropWhile_cons_of_pos (by simpa using hc)
      rw [hinside] at h
      rw [List.cons_append, hpasses, hpasses]
      exact ih h

/-- A text that ends in code, and not with a slash, which could start a comment with what
follows. -/
structure EndsInCode (cs : List Char) : Prop where
  code : regionAfter .code cs = .code
  noSlash : ¬ ['/'] <:+ cs

theorem EndsInCode.of_suffix {cs rest : List Char} (h : EndsInCode cs) (hsuffix : rest <:+ cs)
    (hcode : regionAfter .code rest = .code) : EndsInCode rest :=
  ⟨hcode, fun hslash => h.noSlash (hslash.trans hsuffix)⟩

/-- In a text that ends in code, each lexeme ends where a name or a numeral ends. -/
theorem lexeme_append_of_breaks {c : Char} {cs rest : List Char} (h : EndsInCode (c :: cs))
    (hrest : Breaks rest) :
    lexeme c (cs ++ rest) = ((lexeme c cs).1, (lexeme c cs).2 ++ rest) ∧
      EndsInCode (lexeme c cs).2 := by
  have hslash : c = '/' → cs ≠ [] := by
    rintro rfl rfl
    exact h.noSlash List.suffix_rfl
  obtain ⟨happend, hcode⟩ := lexeme_append (R := (· = .code)) nofun hrest hslash
    (fun hds => afterLineComment_append_of_closed hds rest) h.code
  have hsuffix : (lexeme c cs).2 <:+ c :: cs := (lexeme_suffix c cs).trans (List.suffix_cons c cs)
  exact ⟨happend, h.of_suffix hsuffix hcode⟩

/-- **A text that ends in code is cut into tokens by itself**, if what follows goes on with neither
a name nor a numeral. -/
theorem tokenize_append_of_breaks {cs rest : List Char} (h : EndsInCode cs)
    (hrest : Breaks rest) : tokenize (cs ++ rest) = tokenize cs ++ tokenize rest :=
  tokenize_append (fun h => lexeme_append_of_breaks h hrest) h

/-! ### Comments at a cut -/

theorem afterBlockComment_eq_nil {body : List Char} (h : ¬ ['*', '/'] <:+: body) :
    afterBlockComment body = [] := by
  fun_induction afterBlockComment body with
  | case1 cs => exact absurd (List.prefix_append ['*', '/'] cs).isInfix h
  | case2 c cs _ ih => exact ih fun hinfix => h (List.infix_cons hinfix)
  | case3 => rfl

theorem tokenize_openComment {body : List Char} (h : ¬ ['*', '/'] <:+: body) :
    tokenize ('/' :: '*' :: body) = [] := by
  rw [tokenize_cons, lexeme_blockComment, afterBlockComment_eq_nil h]
  exact tokenize_nil

/-- **Comments are read as white space.**  After a text that ends in code, and not with a slash, a
block comment is read as a blank and a line comment as nothing before its line break, whatever
stands in them and however the text before them was cut off.  A block comment that does not end is
read as nothing. -/
theorem read_append_comment (unit : LengthUnit) {before : String}
    (hcode : regionAfter .code before.toList = .code) (hslash : ¬ ['/'] <:+ before.toList) :
    (∀ body after : String, ¬ ['*', '/'] <:+: body.toList →
      read unit (before ++ "/*" ++ body ++ "*/" ++ after) = read unit (before ++ " " ++ after)) ∧
    (∀ body after : String, '\n' ∉ body.toList →
      read unit (before ++ "//" ++ body ++ "\n" ++ after) = read unit (before ++ "\n" ++ after)) ∧
    (∀ body : String, ¬ ['*', '/'] <:+: body.toList →
      read unit (before ++ "/*" ++ body) = read unit before) := by
  have hends : EndsInCode before.toList := ⟨hcode, hslash⟩
  have hcut {c : Char} (h : c = ' ' ∨ c = '\n' ∨ c = '/') (rest : List Char) :
      tokenize (before.toList ++ c :: rest) = tokenize before.toList ++ tokenize (c :: rest) := by
    refine tokenize_append_of_breaks hends (breaks_cons ?_ ?_ rest)
    all_goals rcases h with rfl | rfl | rfl <;> decide
  refine ⟨fun body after hbody => ?_, fun body after hbody => ?_, fun body hbody => ?_⟩
  · have htext : (before ++ "/*" ++ body ++ "*/" ++ after).toList =
        before.toList ++ '/' :: '*' :: (body.toList ++ '*' :: '/' :: after.toList) := by
      simp
    have hblank : (before ++ " " ++ after).toList = before.toList ++ ' ' :: after.toList := by
      simp
    rw [read, read, parse, parse, htext, hblank, hcut (by decide), hcut (by decide),
      tokenize_blockComment hbody, tokenize_blank_cons (by decide)]
  · have htext : (before ++ "//" ++ body ++ "\n" ++ after).toList =
        before.toList ++ '/' :: '/' :: (body.toList ++ '\n' :: after.toList) := by
      simp
    have hline : (before ++ "\n" ++ after).toList = before.toList ++ '\n' :: after.toList := by
      simp
    rw [read, read, parse, parse, htext, hline, hcut (by decide), hcut (by decide),
      tokenize_lineComment hbody]
  · have htext : (before ++ "/*" ++ body).toList =
        before.toList ++ '/' :: '*' :: body.toList := by
      simp
    rw [read, read, parse, parse, htext, hcut (by decide), tokenize_openComment hbody,
      List.append_nil]

theorem read_append_comment_cutNumeral :
    (regionAfter .code "cube(1.5e".toList = .code ∧ ¬ ['/'] <:+ "cube(1.5e".toList ∧
      ¬ ['*', '/'] <:+: "/ cube(2); // \n*".toList ∧ '\n' ∉ "* */ cube(2);".toList) ∧
    read .meters ("cube(1.5e" ++ "/*" ++ "/ cube(2); // \n*" ++ "*/" ++ "3);") =
      read .meters ("cube(1.5e" ++ " " ++ "3);") ∧
    read .meters ("cube(1.5e" ++ "//" ++ "* */ cube(2);" ++ "\n" ++ "3);") =
      read .meters ("cube(1.5e" ++ "\n" ++ "3);") ∧
    read .meters ("cube(1.5e" ++ "/*" ++ "/ cube(2); // \n*") = read .meters "cube(1.5e" :=
  have hcode : regionAfter .code "cube(1.5e".toList = .code := by decide
  have hslash : ¬ ['/'] <:+ "cube(1.5e".toList := by decide
  have hblock : ¬ ['*', '/'] <:+: "/ cube(2); // \n*".toList := by decide +kernel
  have hline : '\n' ∉ "* */ cube(2);".toList := by decide
  have hread := read_append_comment .meters hcode hslash
  ⟨⟨hcode, hslash, hblock, hline⟩, hread.1 _ _ hblock, hread.2.1 _ _ hline, hread.2.2 _ hblock⟩

end SolidScene.Script
