import SolidScene.Proofs.Script.Brackets
import SolidScene.Proofs.Script.Progress

/-!
# Where reading resumes

A statement that is not well formed is noticed at some token, and reading resumes after what is
skipped in its place.  Skipping starts over at the first token of the statement and only counts
brackets, so the question is whether it gets as far as reading did.

A value or an argument is noticed to be wrong with its brackets still open, and skipping passes the
same brackets (`SkipsTo`).  A block is not well formed only if the tokens end in it, or if there is
no room for it; in the first case skipping gets to the end of the tokens as well if the brackets in
the block are nested (`skipStatement_eq_nil_or_complete`).  So reading resumes no earlier than the
fault was noticed, with one exception: where a closing bracket of another kind has been counted
against the brace of a block that the tokens end in, `resumes_after_fault`.
-/

namespace SolidScene.Script

variable {ts rest : List Token} {room : Nat}

/-! ### Values and arguments -/

/-- With a bracket open, skipping gets from some tokens to others, with a bracket open there as
well. -/
def SkipsTo (ts rest : List Token) : Prop :=
  ∀ n, ∃ m, skipStatement (n + 1) ts = skipStatement (m + 1) rest

namespace SkipsTo

theorem refl (ts : List Token) : SkipsTo ts ts := fun n => ⟨n, rfl⟩

theorem trans {ts' : List Token} (h : SkipsTo ts ts') (h' : SkipsTo ts' rest) :
    SkipsTo ts rest := by
  intro n
  obtain ⟨m, hm⟩ := h n
  obtain ⟨k, hk⟩ := h' m
  exact ⟨k, hm.trans hk⟩

theorem of_balanced {row : List Token} (h : balanced row) (rest : List Token) :
    SkipsTo (row ++ rest) rest := by
  intro n
  have hskip := skipStatement_append_of_closes h n rest
  rw [List.length_nil, Nat.zero_add] at hskip
  exact ⟨n, hskip⟩

theorem comma (ts : List Token) : SkipsTo (.comma :: ts) ts := fun n => ⟨n, rfl⟩

/-- Skipping ends no earlier than there. -/
theorem suffix (h : SkipsTo ts rest) (n : Nat) : skipStatement (n + 1) ts <:+ rest := by
  obtain ⟨m, hm⟩ := h n
  rw [hm]
  exact skipStatement_suffix (m + 1) rest

end SkipsTo

/-- A reader that skipping keeps up with where a bracket is open around what it reads. -/
def Reader.Skipped {α : Type} (r : Reader α) : Prop :=
  ∀ {ts rest : List Token}, r.run ts = .failed rest → SkipsTo ts rest

section Items

variable {α : Type} {item : Reader α} {close : Token} {tokens : α → List Token}

theorem skipsTo_readItemsFrom (hitem : item.Skipped) (htakes : item.Takes tokens)
    (htokens : ∀ v, balanced (tokens v)) {found : List α}
    (h : readItemsFrom item close found ts = .failed rest) : SkipsTo ts rest := by
  have htaken {ts : List Token} {v : α} {tail : List Token}
      (hv : item.run ts = .found v tail) : SkipsTo ts tail := by
    rw [htakes hv]
    exact .of_balanced (htokens v) tail
  fun_induction readItemsFrom item close found ts with
  | case1 found ts tail hv =>
    cases h
    exact hitem hv
  | case2 found ts v tail hv ih => exact ((htaken hv).trans (.comma tail)).trans (ih h)
  | case3 => contradiction
  | case4 found ts v t tail hv =>
    cases h
    exact htaken hv
  | case5 found ts v hv =>
    cases h
    exact htaken hv

theorem skipsTo_readItems (hitem : item.Skipped) (htakes : item.Takes tokens)
    (htokens : ∀ v, balanced (tokens v)) (h : readItems item close ts = .failed rest) :
    SkipsTo ts rest := by
  unfold readItems at h
  split at h
  · split at h
    · contradiction
    · exact skipsTo_readItemsFrom hitem htakes htokens h
  · exact skipsTo_readItemsFrom hitem htakes htokens h

end Items

theorem skipsTo_runValue {room : Nat} (hinner : ∀ r ∈ innerValue room, r.Skipped)
    (h : runValue (innerValue room) ts = .failed rest) : SkipsTo ts rest := by
  unfold runValue at h
  split at h
  · contradiction
  · contradiction
  · cases h
    exact fun n => ⟨n, rfl⟩
  · contradiction
  · have hopen (ts : List Token) : SkipsTo (.openBracket :: ts) ts := fun n => ⟨n + 1, rfl⟩
    split at h
    · cases h
      exact hopen _
    · next item hroom =>
      split at h
      · contradiction
      · next hitems =>
        cases h
        have htakes : item.Takes Value.tokens := by
          cases room with
          | zero => cases hroom
          | succ room =>
            cases hroom
            exact value_takes room
        exact (hopen _).trans
          (skipsTo_readItems (hinner item hroom) htakes Value.balanced_tokens hitems)
  · cases h
    exact .refl _

theorem value_skipped (room : Nat) : (value room).Skipped := by
  apply value_induct (motive := Reader.Skipped)
  intro room hinner ts rest h
  rw [run_value] at h
  exact skipsTo_runValue hinner h

theorem argument_skipped (room : Nat) : (argument room).Skipped := by
  intro ts rest h
  change runArgument (value room) ts = _ at h
  unfold runArgument at h
  split at h
  · split at h
    · contradiction
    · next hv =>
      cases h
      refine SkipsTo.trans ?_ (value_skipped room hv)
      exact fun n => ⟨n, rfl⟩
  · split at h
    · contradiction
    · next hv =>
      cases h
      exact value_skipped room hv

theorem skipsTo_readArguments (h : readArguments room ts = .failed rest) : SkipsTo ts rest :=
  skipsTo_readItems (argument_skipped room) (argument_takes room) Argument.balanced_tokens h

/-! ### Blocks -/

/-- Whether each closing bracket closes the innermost bracket that is open, those awaited among
them. -/
def nests : (awaited ts : List Token) → Bool
  | _, [] => true
  | awaited, t :: ts => (awaitedAfter awaited t).any fun next => nests next ts

theorem nests_cons {awaited : List Token} {t : Token} (h : nests awaited (t :: ts)) :
    ∃ next, awaitedAfter awaited t = some next ∧ nests next ts := by
  rw [nests, Option.any_eq_true] at h
  exact h

/-- A row that closes its brackets leaves those around it as they were. -/
theorem nests_of_closes {inner outer row : List Token} (h : closes inner row)
    (hnests : nests (inner ++ outer) (row ++ ts)) : nests outer ts := by
  induction row generalizing inner with
  | nil =>
    obtain rfl : inner = [] := by simpa [closes] using h
    exact hnests
  | cons t row ih =>
    obtain ⟨next, hnext, hrow⟩ := closes_cons h
    obtain ⟨next', hnext', htail⟩ := nests_cons hnests
    rw [awaitedAfter_append hnext] at hnext'
    cases hnext'
    exact ih hrow htail

/-- A token that closes no bracket opens one, or leaves the brackets as they are; skipping counts it
likewise. -/
theorem awaitedAfter_of_not_isCloser {t : Token} (ht : t.isCloser = false) {inner : List Token}
    (hinner : inner ≠ []) (ts : List Token) :
    ∃ next, awaitedAfter inner t = some next ∧ inner <:+ next ∧
      skipStatement inner.length (t :: ts) = skipStatement next.length ts := by
  cases t with
  | openParen | openBracket | openBrace => exact ⟨_, rfl, List.suffix_cons _ _, rfl⟩
  | closeParen | closeBracket | closeBrace => cases ht
  | semicolon =>
    refine ⟨inner, rfl, List.suffix_rfl, ?_⟩
    rw [skipStatement, if_neg (mt List.length_eq_zero_iff.1 hinner)]
  | _ => exact ⟨inner, rfl, List.suffix_rfl, rfl⟩

theorem Complete.cons {awaited next : List Token} {t : Token}
    (ht : awaitedAfter awaited t = some next) (h : Complete next ts) (hts : ts ≠ []) :
    Complete awaited (t :: ts) := by
  refine ⟨?_, ?_⟩
  · rw [closes, ht]
    exact h.brackets
  · obtain ⟨u, ts, rfl⟩ := List.exists_cons_of_ne_nil hts
    rw [List.getLast?_cons_cons]
    exact h.last

/-- Where the brackets nest, skipping out of a block gets to the end of the tokens, unless the block
ends before. -/
theorem skipStatement_eq_nil_or_complete {inner outer : List Token}
    (hlast : inner.getLast? = some .closeBrace) (h : nests (inner ++ outer) ts) :
    skipStatement inner.length ts = [] ∨ ∃ row more, ts = row ++ more ∧ Complete inner row := by
  induction ts generalizing inner with
  | nil => exact Or.inl (by rw [skipStatement])
  | cons t ts ih =>
    obtain ⟨next', hnext', htail⟩ := nests_cons h
    -- What is skipped, or completes the block, after `t` does so from `t` on.
    have hstep {next : List Token} (hnext : awaitedAfter inner t = some next)
        (hlast : next.getLast? = some .closeBrace)
        (hskip : skipStatement inner.length (t :: ts) = skipStatement next.length ts) :
        skipStatement inner.length (t :: ts) = [] ∨
          ∃ row more, t :: ts = row ++ more ∧ Complete inner row := by
      rw [awaitedAfter_append hnext] at hnext'
      cases hnext'
      obtain hnil | ⟨row, more, rfl, hrow⟩ := ih hlast htail
      · exact Or.inl (hskip.trans hnil)
      · obtain ⟨close, awaited, rfl⟩ : ∃ close awaited, next = close :: awaited :=
          List.exists_cons_of_ne_nil (by rintro rfl; cases hlast)
        exact Or.inr ⟨t :: row, more, rfl, hrow.cons hnext hrow.ne_nil⟩
    obtain ⟨close, tail, rfl⟩ : ∃ close tail, inner = close :: tail :=
      List.exists_cons_of_ne_nil (by rintro rfl; cases hlast)
    cases ht : t.isCloser with
    | false =>
      obtain ⟨next, hnext, hsuffix, hskip⟩ :=
        awaitedAfter_of_not_isCloser ht (List.cons_ne_nil close tail) ts
      refine hstep hnext ?_ hskip
      obtain ⟨opened, rfl⟩ := hsuffix
      rw [List.getLast?_append, hlast]
      rfl
    | true =>
      rw [awaitedAfter_of_isCloser ht, List.cons_append, List.head?_cons] at hnext'
      split at hnext'
      · next hclose =>
        obtain rfl := Option.some.inj hclose
        cases tail with
        | nil =>
          obtain rfl := Option.some.inj hlast
          exact Or.inr ⟨[.closeBrace], ts, rfl, ⟨rfl, by simp⟩⟩
        | cons close' tail =>
          have hnext : awaitedAfter (close :: close' :: tail) close = some (close' :: tail) := by
            rw [awaitedAfter_of_isCloser ht, List.head?_cons, if_pos rfl, List.tail_cons]
          rw [List.getLast?_cons_cons] at hlast
          refine hstep hnext hlast ?_
          cases close <;> first | rfl | cases ht
      · cases hnext'

/-- A block that is not well formed goes on to the end of the tokens. -/
theorem readBlockFrom_failed {one : Reader (List Node)} {nodes : List Node}
    (h : readBlockFrom one nodes ts = .failed rest) : rest = [] := by
  fun_induction readBlockFrom one nodes ts with
  | case1 =>
    cases h
    rfl
  | case2 => contradiction
  | case3 nodes t ts ht next ih => exact ih h

/-- A block whose brackets are all closed is well formed, whatever stands in it. -/
theorem exists_readBlockFrom {awaited : List Token} {one : Reader (List Node)}
    (hone : one.Local (.closeBrace :: awaited) []) (nodes : List Node)
    (h : Complete (.closeBrace :: awaited) ts) :
    ∃ found rest, readBlockFrom one nodes ts = .found found rest := by
  fun_induction readBlockFrom one nodes ts with
  | case1 => exact absurd rfl h.ne_nil
  | case2 nodes ts => exact ⟨_, _, rfl⟩
  | case3 nodes t ts ht step ih =>
    exact ih (readOrSkip_append hone (atStatement_block awaited) h (List.cons_ne_nil t ts)).2

/-! ### Statements -/

/-- Reading some tokens, in which a fault was noticed at others, resumes there or after them; or
else the fault was noticed at the end of the tokens, and their brackets do not nest. -/
def Resumes (ts rest : List Token) : Prop :=
  skipStatement 0 ts <:+ rest ∨ rest = [] ∧ ∀ outer, nests outer ts = false

theorem resumes_runBlock (h : runBlock (innerStatement room) ts = .failed rest) :
    Resumes (.openBrace :: ts) rest := by
  cases room with
  | zero =>
    cases h
    exact Or.inl (skipStatement_suffix 1 ts)
  | succ room =>
    have hend : rest = [] := readBlockFrom_failed h
    by_cases hnests : ∃ outer, nests outer (.openBrace :: ts)
    · obtain ⟨outer, hnests⟩ := hnests
      obtain ⟨next, hnext, hnests⟩ := nests_cons hnests
      cases hnext
      have hone (more : List Token) :
          (statementReader room).Local [.closeBrace] more :=
        statementReader_local room _ (atStatement_block [])
      have hlast : [Token.closeBrace].getLast? = some .closeBrace := rfl
      obtain hnil | ⟨row, more, rfl, hrow⟩ := skipStatement_eq_nil_or_complete hlast hnests
      · refine Or.inl ?_
        rw [hend]
        exact hnil ▸ List.suffix_rfl
      · -- The block ends, so it would have been read.
        obtain ⟨found, left, hfound⟩ := exists_readBlockFrom (hone []) [] hrow
        have hwhole := (extends_readBlockFrom (hone more) [] hrow).of_found hfound
        cases h.symm.trans hwhole.2
    · exact Or.inr ⟨hend, fun outer => Bool.eq_false_iff.2 fun h => hnests ⟨outer, h⟩⟩

theorem resumes_runChildren
    (hinner : ∀ r ∈ innerStatement room, ∀ {ts rest}, r.run ts = .failed rest → Resumes ts rest)
    (h : runChildren (innerStatement room) ts = .failed rest) : Resumes ts rest := by
  unfold runChildren at h
  split at h
  · contradiction
  · contradiction
  · exact resumes_runBlock h
  · split at h
    · cases h
      exact Or.inl (skipStatement_suffix 0 _)
    · next inner hroom => exact hinner inner hroom h

theorem resumes_callTokens {name : String} {arguments : List Argument} (h : Resumes ts rest) :
    Resumes (callTokens name arguments ++ ts) rest := by
  rw [Resumes, skipStatement_callTokens]
  refine h.imp_right fun ⟨hend, hnests⟩ => ⟨hend, fun outer => Bool.eq_false_iff.2 fun h => ?_⟩
  have htail : nests outer ts := nests_of_closes (balanced_callTokens name arguments) h
  rw [hnests outer] at htail
  cases htail

theorem resumes_statementReader (room : Nat) {ts rest : List Token}
    (h : (statementReader room).run ts = .failed rest) : Resumes ts rest := by
  revert h
  revert ts rest
  apply statementReader_induct
    (motive := fun r => ∀ {ts rest}, r.run ts = .failed rest → Resumes ts rest)
  intro room hinner ts rest h
  rw [run_statementReader] at h
  unfold runStatement at h
  split at h
  · contradiction
  · exact resumes_runBlock h
  · next name ts =>
    split at h
    · next hargs =>
      cases h
      exact Or.inl ((skipsTo_readArguments hargs).suffix 0)
    · next arguments ts' hargs =>
      have hcall : Token.word name :: .openParen :: ts = callTokens name arguments ++ ts' := by
        rw [readArguments_takes hargs, callTokens]
        simp
      split at h
      · next hchildren =>
        cases h
        rw [hcall]
        exact resumes_callTokens (resumes_runChildren hinner hchildren)
      · contradiction
  · cases h
    exact Or.inl (skipStatement_suffix 0 _)

/-! ### Cursors -/

/-- A statement that is not well formed stops a cursor at its fault. -/
theorem exists_walkStatement_start {tokens rest : List Token}
    (h : (statementReader deepest).run tokens = .failed rest) :
    ∃ q, walkStatement tokens .start = some ⟨none, q⟩ ∧
      q.index = tokens.length - rest.length := by
  have hstart : Cursor.start.Inside tokens := ⟨Nat.zero_le _, Nat.zero_le _, Nat.zero_le _⟩
  obtain ⟨v, q, -, hfound, -⟩ | ⟨q, hwalk, hfailed, hq, -⟩ :=
    (follows_walkStatement tokens _ .start hstart rfl).cases
  · cases h.symm.trans hfound
  · obtain rfl := Outcome.failed.inj (h.symm.trans hfailed)
    have := hq.index_le
    rw [Cursor.length_left]
    exact ⟨q, hwalk, by omega⟩

/-- **Where reading resumes.**  Skipping a statement that is not well formed ends no earlier than
reading it did, unless reading it came to the end of the tokens and its brackets do not nest. -/
theorem resumes_after_fault {tokens : List Token} {c q : Cursor} (hindex : c.index ≤ tokens.length)
    (hdepth : c.depth ≤ 256) (hpeak : c.peak ≤ 256)
    (hfault : walkStatement tokens c = some ⟨none, q⟩) :
    ∃ r, walkSkip tokens 0 { q with index := c.index } = some r ∧
      (q.index ≤ r.index ∨
        q.index = tokens.length ∧ ∀ outer, nests outer (tokens.drop c.index) = false) := by
  have hc : c.Inside tokens := ⟨hindex, hdepth, hpeak⟩
  obtain ⟨v, c', hwalk, -⟩ | ⟨c', hwalk, hrun, hq, -⟩ :=
    (follows_walkStatement tokens c.room c hc rfl).cases
  · cases hfault.symm.trans hwalk
  · cases hfault.symm.trans hwalk
    have hback : ({ q with index := c.index } : Cursor).Inside tokens :=
      ⟨hindex, hq.depth_le, hq.peak_le⟩
    obtain ⟨r, hskip, hrest, hr, -⟩ := exists_walkSkip 0 hback
    refine ⟨r, hskip, ?_⟩
    obtain hsuffix | ⟨hend, hnests⟩ := resumes_statementReader c.room hrun
    · have hlength : (r.left tokens).length ≤ (q.left tokens).length := by
        rw [hrest]
        exact hsuffix.length_le
      rw [Cursor.length_left, Cursor.length_left] at hlength
      have := hr.index_le
      have := hq.index_le
      exact Or.inl (by omega)
    · exact Or.inr ⟨Nat.le_antisymm hq.index_le (List.drop_eq_nil_iff.1 hend), hnests⟩

/-- A call whose parenthesis is closed by another bracket, and a call after it:
`cube ( 2 ] ; sphere ( 1 ) ;`. -/
def wrongBracket : List Token :=
  [.word "cube", .openParen, .number ⟨2, 0⟩, .closeBracket, .semicolon, .word "sphere",
    .openParen, .number ⟨1, 0⟩, .closeParen, .semicolon]

theorem run_wrongBracket (room : Nat) :
    (statementReader room).run wrongBracket = .failed (wrongBracket.drop 3) := by
  have hedge : (argument room).run (wrongBracket.drop 2) =
      .found ⟨none, .number false ⟨2, 0⟩⟩ (wrongBracket.drop 3) := by
    change runArgument (value room) (wrongBracket.drop 2) = _
    simp only [wrongBracket, List.drop_succ_cons, List.drop_zero, runArgument, run_value, runValue]
  have harguments : readArguments room (wrongBracket.drop 2) = .failed (wrongBracket.drop 3) := by
    rw [readArguments, readItems_of_head? _ (by decide), readItemsFrom_eq, hedge]
    rfl
  rw [run_statementReader]
  change runStatement room _ (.word "cube" :: .openParen :: wrongBracket.drop 2) = _
  rw [runStatement, harguments]

/-- A block that the tokens end in, where a parenthesis is closed that is not open:
`{ ) ; cube ( 1 ) ;`. -/
def unfinishedBlock : List Token :=
  [.openBrace, .closeParen, .semicolon, .word "cube", .openParen, .number ⟨1, 0⟩, .closeParen,
    .semicolon]

example : tokenize "\x7b);cube(1);".toList = unfinishedBlock := by decide +kernel

theorem run_unfinishedBlock (room : Nat) :
    (statementReader (room + 1)).run unfinishedBlock = .failed [] := by
  have hparen : readOrSkip (statementReader room) (.closeParen :: unfinishedBlock.drop 2) =
      ([], .word "cube" :: unfinishedBlock.drop 4) := by
    rw [readOrSkip, run_statementReader]
    rfl
  have hcube : (readOrSkip (statementReader room) (.word "cube" :: unfinishedBlock.drop 4)).2 =
      [] := by
    have hfound := (Statement.call "cube" [⟨none, .number false ⟨1, 0⟩⟩]).readsBack room
      (Nat.zero_le room) []
    change (statementReader room).run (.word "cube" :: unfinishedBlock.drop 4) = _ at hfound
    rw [readOrSkip, hfound]
  change readBlockFrom (statementReader room) [] (.closeParen :: unfinishedBlock.drop 2) = _
  have hstray : Token.closeParen ≠ .closeBrace := Token.noConfusion
  have hname : Token.word "cube" ≠ .closeBrace := Token.noConfusion
  rw [readBlockFrom_of_ne _ _ hstray, hparen, readBlockFrom_of_ne _ _ hname, hcube, readBlockFrom]

theorem exists_walkStatement_unfinishedBlock :
    ∃ q, walkStatement unfinishedBlock .start = some ⟨none, q⟩ ∧
      q.index = unfinishedBlock.length :=
  exists_walkStatement_start (run_unfinishedBlock 255)

/-- After a wrong bracket reading resumes further on; in the block that the tokens end in, skipping
may stop before the fault. -/
theorem resumes_after_fault_bracket_and_block :
    (Cursor.start.index ≤ wrongBracket.length ∧ Cursor.start.depth ≤ 256 ∧
      Cursor.start.peak ≤ 256 ∧ ∃ q, walkStatement wrongBracket .start = some ⟨none, q⟩ ∧
      ∃ r, walkSkip wrongBracket 0 { q with index := Cursor.start.index } = some r ∧
        q.index = 3 ∧ q.index ≤ r.index) ∧
    (Cursor.start.index ≤ unfinishedBlock.length ∧ Cursor.start.depth ≤ 256 ∧
      Cursor.start.peak ≤ 256 ∧ ∃ q, walkStatement unfinishedBlock .start = some ⟨none, q⟩ ∧
      ∃ r, walkSkip unfinishedBlock 0 { q with index := Cursor.start.index } = some r ∧
        (q.index ≤ r.index ∨ q.index = unfinishedBlock.length ∧
          ∀ outer, nests outer (unfinishedBlock.drop Cursor.start.index) = false)) := by
  constructor
  · obtain ⟨q, hwalk, hindex⟩ := exists_walkStatement_start (run_wrongBracket deepest)
    change q.index = 3 at hindex
    obtain ⟨r, hskip, hresumes⟩ := resumes_after_fault (by decide) (by decide) (by decide) hwalk
    have hbefore : q.index ≠ wrongBracket.length := by
      rw [hindex]
      decide
    exact ⟨by decide, by decide, by decide, q, hwalk, r, hskip, hindex,
      hresumes.resolve_right fun hend => hbefore hend.1⟩
  · obtain ⟨q, hwalk, -⟩ := exists_walkStatement_unfinishedBlock
    exact ⟨by decide, by decide, by decide, q, hwalk,
      resumes_after_fault (by decide) (by decide) (by decide) hwalk⟩

/-- Reading does not always get on: the closing parenthesis is counted against the brace, so
skipping ends at the semicolon in the block, and the cube in it is read once more. -/
theorem not_resumes_after_fault :
    ¬ ∀ (tokens : List Token) (c q r : Cursor), c.index ≤ tokens.length → c.depth ≤ 256 →
      c.peak ≤ 256 → walkStatement tokens c = some ⟨none, q⟩ →
      walkSkip tokens 0 { q with index := c.index } = some r → q.index ≤ r.index := by
  intro h
  obtain ⟨q, hwalk, hindex⟩ := exists_walkStatement_unfinishedBlock
  have hskip : walkSkip unfinishedBlock 0 { q with index := Cursor.start.index } =
      some { q with index := 3 } := by
    simp [walkSkip, Cursor.current?, Cursor.advance, unfinishedBlock, Cursor.start]
  have hle := h unfinishedBlock .start q _ (by decide) (by decide) (by decide) hwalk hskip
  rw [hindex] at hle
  have hlt : 3 < unfinishedBlock.length := by decide
  exact absurd hle (Nat.not_le_of_lt hlt)

end SolidScene.Script
