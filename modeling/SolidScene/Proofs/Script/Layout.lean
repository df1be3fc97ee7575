import SolidScene.Proofs.Script.Lexeme

/-!
# Layouts of a row of tokens

A row of tokens can be laid out as text in many ways: each token is spelled, numbers in any of the
forms that a numeral may take, and between the spellings stand white space and comments.
`Layout ts cs` says that `cs` is such a text for `ts`, without any reference to the function that
cuts a text into tokens.  `tokenize_of_layout` says that this function undoes every layout.
-/

namespace SolidScene.Script

open Text

/-! ### Spellings -/

/-- The texts that spell a token.  No text spells `other`. -/
inductive Spelling : Token → List Char → Prop
  | mark {c : Char} {t : Token} (h : punctuation? c = some t) : Spelling t [c]
  | word {c : Char} {cs : List Char} (hc : startsWord c) (hcs : ∀ d ∈ cs, continuesWord d) :
      Spelling (.word (String.ofList (c :: cs))) (c :: cs)
  | number {c : Char} {cs : List Char} {d : Decimal} (hc : startsNumber c cs)
      (hd : Decimal.read? (c :: cs) = some d) : Spelling (.number d) (c :: cs)

/-- Whether a token is spelled by characters that the next spelling could prolong. -/
def Token.isWordlike : Token → Bool
  | .word _ | .number _ => true
  | _ => false

/-- A text that starts with no character of a name or a numeral. -/
def EndsWord (rest : List Char) : Prop :=
  ∀ c ∈ rest.head?, startsWord c = false ∧ c.isDigit = false ∧ c ≠ '.'

theorem endsWord_cons {c : Char} (h : startsWord c = false ∧ c.isDigit = false ∧ c ≠ '.')
    (cs : List Char) : EndsWord (c :: cs) := by
  intro d hd
  obtain rfl := Option.some.inj hd
  exact h

/-- The texts that lay out a row of tokens.  The last line of a text may end in a comment without a
line break. -/
inductive Layout : List Token → List Char → Prop
  | nil : Layout [] []
  | lastComment {body : List Char} (hbody : '\n' ∉ body) : Layout [] ('/' :: '/' :: body)
  | blank {c : Char} {ts : List Token} {cs : List Char} (hc : isBlank c) (h : Layout ts cs) :
      Layout ts (c :: cs)
  | lineComment {body : List Char} {ts : List Token} {cs : List Char} (hbody : '\n' ∉ body)
      (h : Layout ts cs) : Layout ts ('/' :: '/' :: (body ++ '\n' :: cs))
  | blockComment {body : List Char} {ts : List Token} {cs : List Char}
      (hbody : ¬ ['*', '/'] <:+: body) (h : Layout ts cs) :
      Layout ts ('/' :: '*' :: (body ++ '*' :: '/' :: cs))
  | token {t : Token} {spelling : List Char} {ts : List Token} {cs : List Char}
      (ht : Spelling t spelling) (hapart : t.isWordlike → EndsWord cs) (h : Layout ts cs) :
      Layout (t :: ts) (spelling ++ cs)

/-- Whether a text is a name. -/
def isName (name : String) : Bool :=
  match name.toList with
  | c :: cs => startsWord c && cs.all continuesWord
  | [] => false

theorem spelling_word {name : String} (h : isName name) : Spelling (.word name) name.toList := by
  unfold isName at h
  split at h
  · next c cs heq =>
    rw [Bool.and_eq_true, List.all_eq_true] at h
    have hspelling := Spelling.word h.1 h.2
    rwa [← heq, String.ofList_toList] at hspelling
  · contradiction

theorem spelling_number {d : Decimal} (h : d.exponent ≤ 0) : Spelling (.number d) d.text := by
  obtain ⟨c, cs, hcs, hc⟩ := d.head?_text
  have hread := Decimal.read?_text h
  rw [hcs] at hread ⊢
  exact .number (by simp [startsNumber, hc]) hread

/-! ### Layouts from the right -/

section Cons

variable {ts : List Token} {cs : List Char}

theorem Layout.mark {c : Char} {t : Token} (ht : punctuation? c = some t) (h : Layout ts cs) :
    Layout (t :: ts) (c :: cs) := by
  refine Layout.token (.mark ht) (fun hword => ?_) h
  unfold punctuation? at ht
  split at ht <;> cases ht <;> cases hword

theorem Layout.word {name : String} (hname : isName name) (hend : EndsWord cs)
    (h : Layout ts cs) : Layout (.word name :: ts) (name.toList ++ cs) :=
  .token (spelling_word hname) (fun _ => hend) h

theorem Layout.number {d : Decimal} (hd : d.exponent ≤ 0) (hend : EndsWord cs)
    (h : Layout ts cs) : Layout (.number d :: ts) (d.text ++ cs) :=
  .token (spelling_number hd) (fun _ => hend) h

theorem Layout.blanks (n : Nat) (h : Layout ts cs) :
    Layout ts (List.replicate n ' ' ++ cs) := by
  induction n with
  | zero => exact h
  | succ n ih => exact .blank (by decide) ih

end Cons

/-! ### Comments -/

theorem afterLineComment_of_not_mem {body : List Char} (h : '\n' ∉ body) (cs : List Char) :
    afterLineComment (body ++ '\n' :: cs) = '\n' :: cs := by
  have hbody : ∀ c ∈ body, (c != '\n') = true := fun c hc =>
    bne_iff_ne.2 fun heq => h (heq ▸ hc)
  rw [afterLineComment, List.dropWhile_append_of_pos hbody]
  rfl

theorem afterLineComment_eq_nil {body : List Char} (h : '\n' ∉ body) :
    afterLineComment body = [] :=
  List.dropWhile_eq_nil_iff.2 fun _ hc => bne_iff_ne.2 fun heq => h (heq ▸ hc)

theorem afterBlockComment_of_not_infix {body : List Char} (h : ¬ ['*', '/'] <:+: body)
    (cs : List Char) : afterBlockComment (body ++ '*' :: '/' :: cs) = cs := by
  induction body with
  | nil => rfl
  | cons c body ih =>
    have hrest := ih fun hinfix => h (List.infix_cons hinfix)
    by_cases hc : c = '*'
    · subst hc
      cases body with
      | nil => rfl
      | cons d body =>
        have hd : d ≠ '/' := by
          rintro rfl
          exact h ⟨[], body, rfl⟩
        simpa [afterBlockComment, hd] using hrest
    · simpa [afterBlockComment, hc] using hrest

/-! ### Tokens of a layout -/

theorem tokenize_blank_cons {c : Char} (h : isBlank c) (cs : List Char) :
    tokenize (c :: cs) = tokenize cs := by
  rw [tokenize_cons, lexeme_of_isBlank h]
  rfl

section Comments

variable {body : List Char}

theorem tokenize_lineComment (h : '\n' ∉ body) (rest : List Char) :
    tokenize ('/' :: '/' :: (body ++ '\n' :: rest)) = tokenize ('\n' :: rest) := by
  rw [tokenize_cons, lexeme_lineComment, afterLineComment_of_not_mem h]
  rfl

theorem tokenize_blockComment (h : ¬ ['*', '/'] <:+: body) (rest : List Char) :
    tokenize ('/' :: '*' :: (body ++ '*' :: '/' :: rest)) = tokenize rest := by
  rw [tokenize_cons, lexeme_blockComment, afterBlockComment_of_not_infix h]
  rfl

end Comments

theorem EndsWord.continuesWord {rest : List Char} (h : EndsWord rest) :
    ∀ c ∈ rest.head?, Script.continuesWord c = false := by
  intro c hc
  obtain ⟨hstart, hdigit, -⟩ := h c hc
  by_contra hcontinues
  rcases continuesWord_of_startsWord (by simpa using hcontinues) with h | h
  · exact absurd h (by simp [hstart])
  · exact absurd h (by simp [hdigit])

theorem EndsWord.endsNumeral {rest : List Char} (h : EndsWord rest) : Decimal.EndsNumeral rest := by
  intro c hc
  obtain ⟨hstart, hdigit, hpoint⟩ := h c hc
  refine ⟨hdigit, hpoint, ?_, ?_⟩
  · rintro rfl
    exact absurd hstart (by decide)
  · rintro rfl
    exact absurd hstart (by decide)

/-- A spelling is read as its token, whatever follows that does not prolong it. -/
theorem tokenize_spelling_append {t : Token} {spelling rest : List Char} (ht : Spelling t spelling)
    (hapart : t.isWordlike → EndsWord rest) :
    tokenize (spelling ++ rest) = t :: tokenize rest := by
  cases ht with
  | mark h =>
    rw [List.singleton_append, tokenize_cons, lexeme_of_punctuation? h]
    rfl
  | @word c cs hc hcs =>
    have hrest := (hapart rfl).continuesWord
    rw [List.cons_append, tokenize_cons, lexeme_of_startsWord hc, takeWhile_append_of_head hrest,
      dropWhile_append_of_head hrest, List.takeWhile_eq_self_iff.2 hcs,
      List.dropWhile_eq_nil_iff.2 hcs]
    rfl
  | @number c cs d hc hd =>
    have hscan := Decimal.scan_eq_of_read? hd
    have hsome : (Decimal.scan (c :: cs)).1.isSome := by rw [hscan]; rfl
    have happend := Decimal.scan_append (hapart rfl).endsNumeral (Or.inl hsome)
    rw [hscan] at happend
    rw [List.cons_append, tokenize_cons, lexeme_of_startsNumber (startsNumber_append hc rest),
      ← List.cons_append, happend]
    rfl

/-- Cutting a layout into tokens gives back the tokens that it lays out. -/
theorem tokenize_of_layout {ts : List Token} {cs : List Char} (h : Layout ts cs) :
    tokenize cs = ts := by
  induction h with
  | nil => exact tokenize_nil
  | lastComment hbody =>
    rw [tokenize_cons, lexeme_lineComment, afterLineComment_eq_nil hbody, tokenize_nil]
    rfl
  | blank hc _ ih => rw [tokenize_blank_cons hc, ih]
  | lineComment hbody _ ih =>
    rw [tokenize_lineComment hbody, tokenize_blank_cons (by decide), ih]
  | blockComment hbody _ ih => rw [tokenize_blockComment hbody, ih]
  | token ht hapart _ ih => rw [tokenize_spelling_append ht hapart, ih]

end SolidScene.Script
