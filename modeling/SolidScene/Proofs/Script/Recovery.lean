import SolidScene.Proofs.Script.Comment
import SolidScene.Proofs.Script.Reader
import SolidScene.Script.Meaning

/-!
# Faults stay in their statements

A piece of script whose brackets match, and which ends where a statement ends, is read by itself:
what follows has no influence on how the piece is read, and the piece has none on what follows.
This holds whatever stands between the brackets.

`awaitedAfter` follows the brackets with the row of the closing ones still awaited.  The invariant
is `Complete`: the tokens that are left close all that is awaited.  Each reader keeps it
(`Reader.Local`), and so does skipping a statement, although skipping only counts brackets.
-/

namespace SolidScene.Script

/-! ### Brackets -/

/-- Whether a token closes a bracket. -/
def Token.isCloser : Token → Bool
  | .closeParen | .closeBracket | .closeBrace => true
  | _ => false

/-- The closing brackets awaited after a token, the next one first; nothing if the token closes
another bracket than the next one. -/
def awaitedAfter (awaited : List Token) (t : Token) : Option (List Token) :=
  match t with
  | .openParen => some (.closeParen :: awaited)
  | .openBracket => some (.closeBracket :: awaited)
  | .openBrace => some (.closeBrace :: awaited)
  | t =>
    if t.isCloser then if awaited.head? = some t then some awaited.tail else none
    else some awaited

/-- Whether tokens close all brackets awaited and all brackets that they open, each by its own
kind. -/
def closes : (awaited ts : List Token) → Bool
  | awaited, [] => awaited.isEmpty
  | awaited, t :: ts => (awaitedAfter awaited t).any fun next => closes next ts

/-- Whether each bracket is closed by its own kind, and only then. -/
def balanced (ts : List Token) : Bool := closes [] ts

/-- Tokens that close all brackets awaited, and end where a statement may end. -/
structure Complete (awaited ts : List Token) : Prop where
  brackets : closes awaited ts
  last : ∀ t ∈ ts.getLast?, t = .semicolon ∨ t = .closeBrace

variable {awaited next more ts rest : List Token} {t : Token}

theorem Complete.awaited_eq_nil (h : Complete awaited []) : awaited = [] := by
  simpa [closes] using h.brackets

theorem Complete.ne_nil {close : Token} (h : Complete (close :: awaited) ts) : ts ≠ [] := by
  rintro rfl
  cases h.awaited_eq_nil

theorem Complete.last_tail (h : Complete awaited (t :: ts)) :
    ∀ u ∈ ts.getLast?, u = .semicolon ∨ u = .closeBrace := by
  intro u hu
  refine h.last u ?_
  cases ts with
  | nil => cases hu
  | cons v ts => rwa [List.getLast?_cons_cons]

/-- What is left after a token is complete for what is awaited after it. -/
theorem Complete.after (h : Complete awaited (t :: ts)) (ht : awaitedAfter awaited t = some next) :
    Complete next ts := by
  refine ⟨?_, h.last_tail⟩
  have hbrackets := h.brackets
  rwa [closes, ht] at hbrackets

theorem awaitedAfter_of_isCloser (ht : t.isCloser) (awaited : List Token) :
    awaitedAfter awaited t = if awaited.head? = some t then some awaited.tail else none := by
  cases t <;> first | rfl | contradiction

/-- A closing bracket is the next one awaited. -/
theorem Complete.close (h : Complete awaited (t :: ts)) (ht : t.isCloser) :
    ∃ next, awaited = t :: next ∧ Complete next ts := by
  have hafter := awaitedAfter_of_isCloser ht awaited
  by_cases hhead : awaited.head? = some t
  · obtain ⟨next, rfl⟩ := List.head?_eq_some_iff.1 hhead
    refine ⟨next, rfl, h.after ?_⟩
    rw [hafter, if_pos hhead]
    rfl
  · have hbrackets := h.brackets
    rw [closes, hafter, if_neg hhead] at hbrackets
    cases hbrackets

theorem Complete.close_cons {close : Token} (h : Complete (close :: awaited) (t :: ts))
    (ht : t.isCloser) : Complete awaited ts := by
  obtain ⟨next, hnext, hcomplete⟩ := h.close ht
  obtain ⟨-, rfl⟩ := List.cons.inj hnext
  exact hcomplete

/-- Tokens go on after a token that ends no statement. -/
theorem Complete.tail_ne_nil (h : Complete awaited (t :: ts)) (hsemicolon : t ≠ .semicolon)
    (hbrace : t ≠ .closeBrace) : ts ≠ [] := by
  rintro rfl
  rcases h.last t rfl with rfl | rfl
  · exact hsemicolon rfl
  · exact hbrace rfl

/-- Tokens go on after the arguments of a call. -/
theorem Complete.ne_nil_of_suffix (h : Complete awaited ts) (hrest : .closeParen :: rest <:+ ts) :
    rest ≠ [] := by
  rintro rfl
  obtain ⟨taken, rfl⟩ := hrest
  rcases h.last .closeParen (by simp) with h | h <;> cases h

/-! ### Reading a part of the tokens -/

/-- How an outcome on a piece of tokens compares with that on the piece with `more` after it: the
same value, with the same tokens left of the piece, or a failure as well. -/
inductive Extends {α : Type} (awaited more : List Token) : Outcome α → Outcome α → Prop
  | found {v : α} {rest : List Token} (h : Complete awaited rest) :
    Extends awaited more (.found v rest) (.found v (rest ++ more))
  | failed {rest rest' : List Token} : Extends awaited more (.failed rest) (.failed rest')

theorem Extends.of_found {α : Type} {piece whole : Outcome α} {v : α}
    (h : Extends awaited more piece whole) (hpiece : piece = .found v rest) :
    Complete awaited rest ∧ whole = .found v (rest ++ more) := by
  subst hpiece
  cases h with
  | found hrest => exact ⟨hrest, rfl⟩

theorem Extends.of_failed {α : Type} {piece whole : Outcome α}
    (h : Extends awaited more piece whole) (hpiece : piece = .failed rest) :
    ∃ rest', whole = .failed rest' := by
  subst hpiece
  cases h with
  | failed => exact ⟨_, rfl⟩

theorem Extends.found_or_failed {α : Type} {piece whole : Outcome α}
    (h : Extends awaited more piece whole) :
    (∃ v rest, piece = .found v rest ∧ whole = .found v (rest ++ more) ∧ Complete awaited rest) ∨
      ∃ rest rest', piece = .failed rest ∧ whole = .failed rest' := by
  cases h with
  | found hrest => exact Or.inl ⟨_, _, rfl, rfl, hrest⟩
  | failed => exact Or.inr ⟨_, _, rfl, rfl⟩

/-- A reader that takes nothing from beyond a piece that closes the brackets awaited. -/
def Reader.Local {α : Type} (r : Reader α) (awaited more : List Token) : Prop :=
  ∀ {ts : List Token}, Complete awaited ts → ts ≠ [] →
    Extends awaited more (r.run ts) (r.run (ts ++ more))

section Items

variable {α : Type} {item : Reader α} {close : Token}

theorem extends_readItemsFrom (hclose : close.isCloser)
    (hitem : item.Local (close :: awaited) more) (found : List α)
    (h : Complete (close :: awaited) ts) :
    Extends awaited more (readItemsFrom item close found ts)
      (readItemsFrom item close found (ts ++ more)) := by
  fun_induction readItemsFrom item close found ts with
  | case1 found ts rest hrun =>
    obtain ⟨rest', hwhole⟩ := (hitem h h.ne_nil).of_failed hrun
    rw [readItemsFrom_eq item close found (ts ++ more), hwhole]
    exact .failed
  | case2 found ts v tail hrun ih =>
    obtain ⟨hrest, hwhole⟩ := (hitem h h.ne_nil).of_found hrun
    rw [readItemsFrom_eq item close found (ts ++ more), hwhole]
    simpa using ih (hrest.after rfl)
  | case3 found ts v rest hrun hcomma =>
    obtain ⟨hrest, hwhole⟩ := (hitem h h.ne_nil).of_found hrun
    rw [readItemsFrom_eq item close found (ts ++ more), hwhole]
    simpa [hcomma] using Extends.found (hrest.close_cons hclose)
  | case4 found ts v t rest hrun hcomma hother =>
    obtain ⟨-, hwhole⟩ := (hitem h h.ne_nil).of_found hrun
    rw [readItemsFrom_eq item close found (ts ++ more), hwhole]
    simpa [hcomma, hother] using Extends.failed
  | case5 found ts v hrun =>
    obtain ⟨hrest, -⟩ := (hitem h h.ne_nil).of_found hrun
    exact absurd rfl hrest.ne_nil

/-- A list is read within the brackets that its closing token ends. -/
theorem extends_readItems (hclose : close.isCloser)
    (hitem : item.Local (close :: awaited) more) (h : Complete (close :: awaited) ts) :
    Extends awaited more (readItems item close ts) (readItems item close (ts ++ more)) := by
  cases ts with
  | nil => exact absurd rfl h.ne_nil
  | cons t ts =>
    rw [List.cons_append, readItems, readItems]
    by_cases ht : t = close
    · rw [if_pos ht, if_pos ht]
      exact .found (h.close_cons (ht ▸ hclose))
    · rw [if_neg ht, if_neg ht]
      exact extends_readItemsFrom hclose hitem [] h

end Items

/-! ### Values and arguments -/

theorem extends_runValue {inner : Option (Reader Value)}
    (hinner : ∀ r ∈ inner, ∀ awaited, r.Local awaited more) (h : Complete awaited ts)
    (hts : ts ≠ []) : Extends awaited more (runValue inner ts) (runValue inner (ts ++ more)) := by
  obtain ⟨t, ts, rfl⟩ := List.exists_cons_of_ne_nil hts
  cases t with
  | number x => exact .found (h.after rfl)
  | word name => exact .found (h.after rfl)
  | minus =>
    obtain ⟨u, ts, rfl⟩ := List.exists_cons_of_ne_nil (h.tail_ne_nil nofun nofun)
    cases u with
    | number x => exact .found ((h.after rfl).after rfl)
    | _ => exact .failed
  | openBracket =>
    cases inner with
    | none => exact .failed
    | some item =>
      have hitems : Extends awaited more (readItems item .closeBracket ts)
          (readItems item .closeBracket (ts ++ more)) :=
        extends_readItems rfl (hinner item rfl _) (h.after rfl)
      simp only [List.cons_append, runValue]
      rcases hitems.found_or_failed with ⟨items, rest, hpiece, hwhole, hrest⟩ |
        ⟨rest, rest', hpiece, hwhole⟩
      · rw [hpiece, hwhole]
        exact .found hrest
      · rw [hpiece, hwhole]
        exact .failed
  | _ => exact .failed

theorem value_local (room : Nat) : ∀ awaited, (value room).Local awaited more := by
  apply value_induct (motive := fun r => ∀ awaited, r.Local awaited more)
  intro room hinner awaited ts h hts
  rw [run_value]
  exact extends_runValue hinner h hts

/-- An argument has a name only if the second token is an equals sign. -/
theorem runArgument_of_ne {v : Reader Value} (h : ∀ name ts', ts ≠ .word name :: .equals :: ts') :
    runArgument v ts =
      match v.run ts with
      | .found x rest => .found ⟨none, x⟩ rest
      | .failed rest => .failed rest := by
  unfold runArgument
  split
  · next name tail => exact absurd rfl (h name tail)
  · rfl

theorem extends_runArgument {v : Reader Value} (hv : v.Local awaited more)
    (h : Complete awaited ts) (hts : ts ≠ []) :
    Extends awaited more (runArgument v ts) (runArgument v (ts ++ more)) := by
  by_cases hname : ∃ name tail, ts = .word name :: .equals :: tail
  · obtain ⟨name, tail, rfl⟩ := hname
    have htail : Complete awaited tail := (h.after rfl).after rfl
    have hvalue := hv htail ((h.after rfl).tail_ne_nil nofun nofun)
    simp only [List.cons_append, runArgument]
    rcases hvalue.found_or_failed with ⟨x, rest, hpiece, hwhole, hrest⟩ |
      ⟨rest, rest', hpiece, hwhole⟩
    · rw [hpiece, hwhole]
      exact .found hrest
    · rw [hpiece, hwhole]
      exact .failed
  · have hnone : ∀ name tail, ts ≠ .word name :: .equals :: tail :=
      fun name tail heq => hname ⟨name, tail, heq⟩
    -- A name does not end a statement, so its equals sign would stand in the piece as well.
    have hnone' : ∀ name tail, ts ++ more ≠ .word name :: .equals :: tail := by
      intro name tail heq
      obtain ⟨t, ts, rfl⟩ := List.exists_cons_of_ne_nil hts
      obtain ⟨rfl, htail⟩ := List.cons.inj heq
      obtain ⟨u, ts, rfl⟩ := List.exists_cons_of_ne_nil (h.tail_ne_nil nofun nofun)
      obtain ⟨rfl, -⟩ := List.cons.inj htail
      exact hnone name ts rfl
    have hvalue := hv h hts
    rw [runArgument_of_ne hnone, runArgument_of_ne hnone']
    rcases hvalue.found_or_failed with ⟨x, rest, hpiece, hwhole, hrest⟩ |
      ⟨rest, rest', hpiece, hwhole⟩
    · rw [hpiece, hwhole]
      exact .found hrest
    · rw [hpiece, hwhole]
      exact .failed

theorem argument_local (room : Nat) (awaited : List Token) :
    (argument room).Local awaited more :=
  fun h hts => extends_runArgument (value_local room awaited) h hts

/-- The arguments of a call end within the piece, and the piece goes on after them. -/
theorem extends_readArguments (room : Nat) (h : Complete (.closeParen :: awaited) ts) :
    Extends awaited more (readArguments room ts) (readArguments room (ts ++ more)) :=
  extends_readItems rfl (argument_local room _) h

/-! ### Skipping -/

/-- Where a statement may stand: outside all brackets, or in a block. -/
def AtStatement (awaited : List Token) : Prop := ∀ t ∈ awaited.head?, t = .closeBrace

theorem atStatement_block (awaited : List Token) : AtStatement (.closeBrace :: awaited) := by
  rintro t ht
  exact (Option.some.inj ht).symm

/-- A bracket other than a brace is awaited only where the statement itself has opened it. -/
theorem AtStatement.exists_inner {inner outer : List Token} (hat : AtStatement outer)
    (h : inner ++ outer = t :: next) (ht : t ≠ .closeBrace) :
    ∃ inner', inner = t :: inner' ∧ next = inner' ++ outer := by
  cases inner with
  | nil =>
    rw [List.nil_append] at h
    subst h
    exact absurd (hat t rfl) ht
  | cons close inner =>
    obtain ⟨rfl, rfl⟩ := List.cons.inj h
    exact ⟨inner, rfl, rfl⟩

/-- Skipping a statement ends within the piece, where a statement may stand.  It counts the brackets
`inner` that the statement has opened and forgets their kinds, which does no harm where each is
closed by its own kind. -/
theorem skipStatement_append {outer : List Token} (hat : AtStatement outer)
    (inner : List Token) (h : Complete (inner ++ outer) ts) (hts : ts ≠ []) (more : List Token) :
    skipStatement inner.length (ts ++ more) = skipStatement inner.length ts ++ more ∧
      Complete outer (skipStatement inner.length ts) := by
  induction ts generalizing inner with
  | nil => exact absurd rfl hts
  | cons t ts ih =>
    cases t with
    | openParen =>
      exact ih (.closeParen :: inner) (h.after rfl) (h.tail_ne_nil nofun nofun)
    | openBracket =>
      exact ih (.closeBracket :: inner) (h.after rfl) (h.tail_ne_nil nofun nofun)
    | openBrace =>
      exact ih (.closeBrace :: inner) (h.after rfl) (h.tail_ne_nil nofun nofun)
    | closeParen =>
      obtain ⟨next, hnext, hcomplete⟩ := h.close rfl
      obtain ⟨inner, rfl, rfl⟩ := hat.exists_inner hnext nofun
      exact ih inner hcomplete (h.tail_ne_nil nofun nofun)
    | closeBracket =>
      obtain ⟨next, hnext, hcomplete⟩ := h.close rfl
      obtain ⟨inner, rfl, rfl⟩ := hat.exists_inner hnext nofun
      exact ih inner hcomplete (h.tail_ne_nil nofun nofun)
    | closeBrace =>
      -- The brace may end the block around the statement, the statement, or a block within it.
      rcases inner with _ | ⟨close, _ | ⟨close', inner⟩⟩
      · exact ⟨rfl, h⟩
      · exact ⟨rfl, h.close_cons rfl⟩
      · exact ih (close' :: inner) (h.close_cons rfl) (h.close_cons rfl).ne_nil
    | semicolon =>
      cases inner with
      | nil => exact ⟨rfl, h.after rfl⟩
      | cons close inner => exact ih (close :: inner) (h.after rfl) (h.after rfl).ne_nil
    | _ => exact ih inner (h.after rfl) (h.tail_ne_nil nofun nofun)

/-! ### Statements -/

theorem readOrSkip_append {one : Reader (List Node)} (hone : one.Local awaited more)
    (hat : AtStatement awaited) (h : Complete awaited ts) (hts : ts ≠ []) :
    readOrSkip one (ts ++ more) = ((readOrSkip one ts).1, (readOrSkip one ts).2 ++ more) ∧
      Complete awaited (readOrSkip one ts).2 := by
  unfold readOrSkip
  rcases (hone h hts).found_or_failed with ⟨nodes, rest, hpiece, hwhole, hrest⟩ |
    ⟨rest, rest', hpiece, hwhole⟩
  · rw [hpiece, hwhole]
    exact ⟨rfl, hrest⟩
  · obtain ⟨hskip, hcomplete⟩ := skipStatement_append hat [] h hts more
    rw [hpiece, hwhole]
    exact ⟨congrArg (Prod.mk []) hskip, hcomplete⟩

theorem extends_readBlockFrom {one : Reader (List Node)}
    (hone : one.Local (.closeBrace :: awaited) more) (nodes : List Node)
    (h : Complete (.closeBrace :: awaited) ts) :
    Extends awaited more (readBlockFrom one nodes ts) (readBlockFrom one nodes (ts ++ more)) := by
  fun_induction readBlockFrom one nodes ts with
  | case1 => exact absurd rfl h.ne_nil
  | case2 nodes ts =>
    rw [List.cons_append, readBlockFrom_closeBrace]
    exact .found (h.close_cons rfl)
  | case3 nodes t ts ht step ih =>
    obtain ⟨hwhole, hcomplete⟩ :=
      readOrSkip_append hone (atStatement_block awaited) h (List.cons_ne_nil t ts)
    rw [List.cons_append, readBlockFrom_of_ne _ _ ht, ← List.cons_append, hwhole]
    exact ih hcomplete

theorem extends_runBlock {inner : Option (Reader (List Node))}
    (hinner : ∀ r ∈ inner, r.Local (.closeBrace :: awaited) more)
    (h : Complete (.closeBrace :: awaited) ts) :
    Extends awaited more (runBlock inner ts) (runBlock inner (ts ++ more)) := by
  cases inner with
  | none => exact .failed
  | some one => exact extends_readBlockFrom (hinner one rfl) [] h

theorem extends_runChildren {inner : Option (Reader (List Node))}
    (hinner : ∀ r ∈ inner, ∀ awaited, AtStatement awaited → r.Local awaited more)
    (hat : AtStatement awaited) (h : Complete awaited ts) (hts : ts ≠ []) :
    Extends awaited more (runChildren inner ts) (runChildren inner (ts ++ more)) := by
  obtain ⟨t, ts, rfl⟩ := List.exists_cons_of_ne_nil hts
  cases t with
  | semicolon => exact .found (h.after rfl)
  | openBrace =>
    exact extends_runBlock (fun r hr => hinner r hr _ (atStatement_block awaited)) (h.after rfl)
  | _ =>
    cases inner with
    | none => exact .failed
    | some one => exact hinner one rfl awaited hat h hts

/-- A call goes on after its arguments within the piece, so nothing that follows the piece is taken
for its children. -/
theorem extends_runStatement (room : Nat) {inner : Option (Reader (List Node))}
    (hinner : ∀ r ∈ inner, ∀ awaited, AtStatement awaited → r.Local awaited more)
    (hat : AtStatement awaited) (h : Complete awaited ts) (hts : ts ≠ []) :
    Extends awaited more (runStatement room inner ts) (runStatement room inner (ts ++ more)) := by
  obtain ⟨t, ts, rfl⟩ := List.exists_cons_of_ne_nil hts
  cases t with
  | semicolon => exact .found (h.after rfl)
  | openBrace =>
    exact extends_runBlock (fun r hr => hinner r hr _ (atStatement_block awaited)) (h.after rfl)
  | word name =>
    obtain ⟨u, ts, rfl⟩ := List.exists_cons_of_ne_nil (h.tail_ne_nil nofun nofun)
    cases u with
    | openParen =>
      have hopen : Complete (.closeParen :: awaited) ts := (h.after rfl).after rfl
      have hargs : Extends awaited more (readArguments room ts) (readArguments room (ts ++ more)) :=
        extends_readArguments room hopen
      simp only [List.cons_append, runStatement]
      rcases hargs.found_or_failed with ⟨arguments, tail, hpiece, hwhole, htail⟩ |
        ⟨rest, rest', hpiece, hwhole⟩
      · have hne : tail ≠ [] := hopen.ne_nil_of_suffix (readArguments_suffix hpiece)
        rw [hpiece, hwhole]
        rcases (extends_runChildren hinner hat htail hne).found_or_failed with
          ⟨children, rest, hpiece, hwhole, hrest⟩ | ⟨rest, rest', hpiece, hwhole⟩
        · simp only [hpiece, hwhole]
          exact .found hrest
        · simp only [hpiece, hwhole]
          exact .failed
      · rw [hpiece, hwhole]
        exact .failed
    | _ => exact .failed
  | _ => exact .failed

/-- The reader of statements takes nothing from beyond a piece, at any level. -/
theorem statementReader_local (room : Nat) :
    ∀ awaited, AtStatement awaited → (statementReader room).Local awaited more := by
  apply statementReader_induct
    (motive := fun r => ∀ awaited, AtStatement awaited → r.Local awaited more)
  intro room hinner awaited hat ts h hts
  rw [run_statementReader]
  exact extends_runStatement room hinner hat h hts

/-! ### Scripts -/

theorem readAll_append (h : Complete [] ts) (more : List Token) :
    readAll (ts ++ more) = readAll ts ++ readAll more := by
  have hat : AtStatement [] := nofun
  have hone : outermost.Local [] more := statementReader_local deepest [] hat
  induction ts using readAll_induct with
  | nil => rw [readAll_nil, List.nil_append, List.nil_append]
  | closeBrace ts ih =>
    -- No brace is awaited outside all brackets.
    obtain ⟨next, hnext, -⟩ := h.close rfl
    cases hnext
  | statement t ts ht ih =>
    obtain ⟨hwhole, hcomplete⟩ := readOrSkip_append hone hat h (List.cons_ne_nil t ts)
    have hrest := ih hcomplete
    rw [List.cons_append, readAll_of_ne ht, ← List.cons_append, hwhole, readAll_of_ne ht,
      List.append_assoc, hrest]

/-- **A piece of script with matching brackets is read by itself**, if it ends where a statement may
end and outside block comments: faults in it do no harm to the script on the lines after it. -/
theorem read_append_newline (unit : LengthUnit) {first : String}
    (hcomment : EndsOutsideComment first.toList)
    (hbrackets : balanced (tokenize first.toList))
    (hlast : ∀ t ∈ (tokenize first.toList).getLast?, t = .semicolon ∨ t = .closeBrace)
    (second : String) :
    read unit (first ++ "\n" ++ second) = read unit first ++ read unit second := by
  have htext : (first ++ "\n" ++ second).toList = first.toList ++ '\n' :: second.toList := by
    simp
  rw [read, parse, htext, tokenize_append_newline hcomment, readAll_append ⟨hbrackets, hlast⟩,
    List.flatMap_append]
  rfl

theorem read_append_newline_faults :
    EndsOutsideComment "oops [;]; cube(1 2) (;); cube(2);".toList ∧
      balanced (tokenize "oops [;]; cube(1 2) (;); cube(2);".toList) ∧
      (∀ t ∈ (tokenize "oops [;]; cube(1 2) (;); cube(2);".toList).getLast?,
        t = .semicolon ∨ t = .closeBrace) ∧
      read .meters ("oops [;]; cube(1 2) (;); cube(2);" ++ "\n" ++ "sphere(1") =
        read .meters "oops [;]; cube(1 2) (;); cube(2);" ++ read .meters "sphere(1" :=
  ⟨by decide, by decide +kernel, by decide +kernel,
    read_append_newline .meters (by decide) (by decide +kernel) (by decide +kernel) "sphere(1"⟩

end SolidScene.Script
