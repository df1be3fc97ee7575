import SolidScene.Proofs.Script.Brackets
import SolidScene.Proofs.Script.Denotation
import SolidScene.Proofs.Script.Occurrences

/-!
# The limit on nesting

A statement `s` is `Wrapped core levels s` if it stands around the statement `core` by so many
blocks, calls before blocks and calls before calls, each of which opens one level.  Where there is
room for all levels, `s` is read as its grammar says (`Statement.readsBack`).  Where there is not,
one of the wrappers is not well formed; what is skipped for it is the whole of some wrapped
statement, so reading goes on after `s` in any case, and of `s` no solids are left
(`Wrapped.leavesNothing`).
-/

namespace SolidScene.Script

/-- A statement that wraps another one in so many levels.  A wrapper is a block, a call before a
block, or a call before another call; it makes no solid of its own, and vectors nest one level at
most in its arguments. -/
inductive Wrapped (core : Statement) : Nat → Statement → Prop
  | core : Wrapped core 0 core
  | block {levels : Nat} {s : Statement} (h : Wrapped core levels s) :
      Wrapped core (levels + 1) (.block [s])
  | callBlock {levels : Nat} {s : Statement} {name : String} {arguments : List Argument}
      (hname : name ∉ ["cube", "sphere", "cylinder"]) (harguments : depthOfArguments arguments ≤ 1)
      (h : Wrapped core levels s) : Wrapped core (levels + 1) (.callBlock name arguments [s])
  | callNext {levels : Nat} {s : Statement} {name : String} {arguments : List Argument}
      (hname : name ∉ ["cube", "sphere", "cylinder"]) (harguments : depthOfArguments arguments ≤ 1)
      (hcall : s.isCall) (h : Wrapped core levels s) :
      Wrapped core (levels + 1) (.callNext name arguments s)

theorem kindOfCall?_eq_none {name : String} (h : name ∉ ["cube", "sphere", "cylinder"]) :
    kindOfCall? name = none := by
  simp only [List.mem_cons, List.not_mem_nil, or_false, not_or] at h
  unfold kindOfCall?
  split <;> simp_all

variable {core s : Statement} {levels : Nat}

/-! ### Room for all levels -/

theorem Wrapped.depth_le (h : Wrapped core levels s) (hcore : core.depth = 0) :
    s.depth ≤ levels := by
  induction h with
  | core => exact Nat.le_of_eq hcore
  | block h ih =>
    rw [Statement.depth, depthOf, depthOf, Nat.max_zero]
    exact Nat.succ_le_succ ih
  | callBlock _ harguments h ih =>
    rw [Statement.depth, depthOf, depthOf, Nat.max_zero, Nat.max_le]
    exact ⟨Nat.le_trans harguments (Nat.succ_le_succ (Nat.zero_le _)), Nat.succ_le_succ ih⟩
  | callNext _ harguments hcall h ih =>
    rw [Statement.depth, Nat.max_le, hcall]
    exact ⟨Nat.le_trans harguments (Nat.succ_le_succ (Nat.zero_le _)), Nat.succ_le_succ ih⟩

/-- Wrappers contribute what the statement in them does, a single row of one solid. -/
theorem Wrapped.contributions (h : Wrapped core levels s) {factor : Float} {solid : Solid}
    (hcore : core.contributions factor = [[solid]]) : s.contributions factor = [[solid]] := by
  have hcall {name : String} (hname : name ∉ ["cube", "sphere", "cylinder"])
      (arguments : List Argument) :
      contribution factor name arguments [[solid]] = [solid] := by
    simp only [contribution, kindOfCall?_eq_none hname]
    split <;> rfl
  induction h with
  | core => exact hcore
  | block h ih => rw [Statement.contributions, contributionsOf, ih]; rfl
  | callBlock hname harguments h ih =>
    rw [Statement.contributions, contributionsOf, ih, contributionsOf, List.append_nil,
      hcall hname]
  | callNext hname harguments hnext h ih => rw [Statement.contributions, ih, hcall hname]

/-! ### No room -/

/-- At any level the arguments of a call are read from their tokens or not at all. -/
theorem readArguments_tokens_or (room : Nat) (arguments : List Argument) (rest : List Token) :
    (∃ left, readArguments room
        (separated (arguments.map Argument.tokens) ++ .closeParen :: rest) = .failed left) ∨
      readArguments room (separated (arguments.map Argument.tokens) ++ .closeParen :: rest) =
        .found arguments rest := by
  have hroomy := readArguments_tokens
    (Nat.le_max_right room (depthOfArguments arguments)) rest
  cases hread : readArguments room
      (separated (arguments.map Argument.tokens) ++ .closeParen :: rest) with
  | failed left => exact Or.inl ⟨left, rfl⟩
  | found found left =>
    have hcovers := readItems_covers
      (argument_covers (Nat.le_max_left room (depthOfArguments arguments))) hread
    exact Or.inr (hcovers.symm.trans hroomy)

/-- A call is read with what follows its arguments as its children, or not at all. -/
theorem runStatement_callTokens_or (room : Nat) (inner : Option (Reader (List Node)))
    (name : String) (arguments : List Argument) (ts : List Token) :
    (∃ left, runStatement room inner (callTokens name arguments ++ ts) = .failed left) ∨
      ∃ children rest, runChildren inner ts = .found children rest ∧
        runStatement room inner (callTokens name arguments ++ ts) =
          .found [.call name arguments children] rest := by
  have htokens : callTokens name arguments ++ ts = .word name :: .openParen ::
      (separated (arguments.map Argument.tokens) ++ .closeParen :: ts) := by
    simp [callTokens]
  rw [htokens]
  simp only [runStatement]
  obtain ⟨left, hread⟩ | hread := readArguments_tokens_or room arguments ts
  · rw [hread]
    exact Or.inl ⟨left, rfl⟩
  · rw [hread]
    cases hchildren : runChildren inner ts with
    | failed left => exact Or.inl ⟨left, by simp only [hchildren]⟩
    | found children rest => exact Or.inr ⟨children, rest, rfl, by simp only [hchildren]⟩

/-- A call after a call is read one level further in. -/
theorem runChildren_of_isCall (h : s.isCall) (inner : Option (Reader (List Node)))
    (rest : List Token) :
    runChildren inner (s.tokens ++ rest) =
      match inner with
      | none => .failed (s.tokens ++ rest)
      | some inner => inner.run (s.tokens ++ rest) := by
  cases s with
  | empty | block => cases h
  | _ => cases inner <;> rfl

/-- A block around one statement is read as what is read, or skipped, in it. -/
theorem readBlock_of_readOrSkip {one : Reader (List Node)} {nodes : List Node} {rest : List Token}
    (h : readOrSkip one (s.tokens ++ .closeBrace :: rest) = (nodes, .closeBrace :: rest)) :
    readBlock one (s.tokens ++ .closeBrace :: rest) = .found nodes rest := by
  obtain ⟨t, ts, hts, ht⟩ := s.head?_tokens (.closeBrace :: rest)
  rw [hts] at h ⊢
  rw [readBlock, readBlockFrom_of_ne one [] ht, h, readBlockFrom_closeBrace]
  simp

/-- A statement of which nothing is left, with what follows it: it is not well formed, or it is read
and has no solids. -/
def LeavesNothing (factor : Float) (r : Reader (List Node)) (s : Statement) : Prop :=
  ∀ rest, (∃ left, r.run (s.tokens ++ rest) = .failed left) ∨
    ∃ nodes, r.run (s.tokens ++ rest) = .found nodes rest ∧ solidsOf factor nodes = []

/-- Such a statement is passed over as a whole, whether it is read or skipped. -/
theorem LeavesNothing.readOrSkip {factor : Float} {r : Reader (List Node)}
    (h : LeavesNothing factor r s) (rest : List Token) :
    ∃ nodes, Script.readOrSkip r (s.tokens ++ rest) = (nodes, rest) ∧
      solidsOf factor nodes = [] := by
  unfold Script.readOrSkip
  obtain ⟨left, hrun⟩ | ⟨nodes, hrun, hnone⟩ := h rest
  · rw [hrun]
    exact ⟨[], congrArg (Prod.mk []) (skipStatement_tokens s rest), rfl⟩
  · rw [hrun]
    exact ⟨nodes, rfl, hnone⟩

theorem solidsOf_call_eq_nil {factor : Float} {name : String}
    (hname : name ∉ ["cube", "sphere", "cylinder"]) (arguments : List Argument)
    {children : List Node} (h : solidsOf factor children = []) :
    solidsOf factor [.call name arguments children] = [] := by
  have hsub : ((Node.call name arguments children).solids factor).Sublist
      (solidsOf factor children) :=
    solids_sublist_of_kindOfCall? (kindOfCall?_eq_none hname) arguments children
  rw [h, List.sublist_nil] at hsub
  rw [solidsOf, solidsOf, hsub]
  rfl

/-- A block leaves nothing if there is no room for it, or if what is in it leaves nothing. -/
theorem runBlock_leavesNothing {factor : Float} {room : Nat}
    (h : ∀ less, room = less + 1 → LeavesNothing factor (statementReader less) s)
    (rest : List Token) :
    (∃ left, runBlock (innerStatement room) (tokensOf [s] ++ .closeBrace :: rest) =
        .failed left) ∨
      ∃ nodes, runBlock (innerStatement room) (tokensOf [s] ++ .closeBrace :: rest) =
        .found nodes rest ∧ solidsOf factor nodes = [] := by
  cases room with
  | zero => exact Or.inl ⟨_, rfl⟩
  | succ less =>
    obtain ⟨nodes, hread, hnone⟩ := (h less rfl).readOrSkip (.closeBrace :: rest)
    rw [tokensOf, tokensOf, List.append_nil]
    exact Or.inr ⟨nodes, readBlock_of_readOrSkip hread, hnone⟩

/-- Where there is less room than a statement is wrapped in levels, nothing is left of it. -/
theorem Wrapped.leavesNothing (h : Wrapped core levels s) (factor : Float) {room : Nat}
    (hroom : room < levels) : LeavesNothing factor (statementReader room) s := by
  induction h generalizing room with
  | core => exact absurd hroom (Nat.not_lt_zero _)
  | block h ih =>
    intro rest
    rw [run_statementReader, Statement.tokens, List.cons_append, List.append_assoc]
    refine runBlock_leavesNothing (fun less heq => ih ?_) rest
    rw [heq] at hroom
    exact Nat.lt_of_succ_lt_succ hroom
  | @callBlock levels s name arguments hname _ h ih =>
    intro rest
    have hblock (less : Nat) (heq : room = less + 1) :
        LeavesNothing factor (statementReader less) s := by
      rw [heq] at hroom
      exact ih (Nat.lt_of_succ_lt_succ hroom)
    rw [run_statementReader, Statement.tokens, List.append_assoc, List.cons_append,
      List.append_assoc]
    obtain hfailed | ⟨children, left, hchildren, hrun⟩ := runStatement_callTokens_or room
      (innerStatement room) name arguments (.openBrace :: (tokensOf [s] ++ .closeBrace :: rest))
    · exact Or.inl hfailed
    · obtain ⟨left', hfailed⟩ | ⟨nodes, hfound, hnone⟩ := runBlock_leavesNothing hblock rest
      · cases hchildren.symm.trans hfailed
      · cases hchildren.symm.trans hfound
        exact Or.inr ⟨_, hrun, solidsOf_call_eq_nil hname arguments hnone⟩
  | @callNext levels s name arguments hname _ hcall h ih =>
    intro rest
    rw [run_statementReader, Statement.tokens, List.append_assoc]
    obtain hfailed | ⟨children, left, hchildren, hrun⟩ := runStatement_callTokens_or room
      (innerStatement room) name arguments (s.tokens ++ rest)
    · exact Or.inl hfailed
    · rw [runChildren_of_isCall hcall] at hchildren
      cases room with
      | zero => cases hchildren
      | succ less =>
        obtain ⟨left', hfailed⟩ | ⟨nodes, hfound, hnone⟩ := ih (Nat.lt_of_succ_lt_succ hroom) rest
        · cases hchildren.symm.trans hfailed
        · cases hchildren.symm.trans hfound
          exact Or.inr ⟨_, hrun, solidsOf_call_eq_nil hname arguments hnone⟩

/-! ### Scripts -/

/-- A cube with one argument. -/
def cubeOf (n : Value) : Statement := .call "cube" [⟨none, n⟩]

section Cube

variable {n : Value} {x : Float}

theorem depth_cubeOf (hn : n.toFloat? = some x) : (cubeOf n).depth = 0 := by
  cases n with
  | number negative magnitude => rfl
  | word name => cases hn
  | vector items => cases hn

theorem contributions_cubeOf {factor : Float} (hn : n.toFloat? = some x)
    (hscale : Solid.validScale (x / factor)) :
    (cubeOf n).contributions factor = [[⟨.box, x / factor⟩]] := by
  have hlength : length? .box [⟨none, n⟩] = some x := by
    cases n with
    | number negative magnitude => exact hn
    | word name => cases hn
    | vector items => cases hn
  have hsolid : solid? factor .box [⟨none, n⟩] = some ⟨.box, x / factor⟩ := by
    rw [solid?, hlength, Option.bind_some]
    exact if_pos hscale
  rw [cubeOf, Statement.contributions, contribution]
  simp only [kindOfCall?, hsolid]
  rfl

end Cube

/-- The last token of a statement ends it. -/
theorem Statement.exists_last (s : Statement) :
    ∃ row t, s.tokens = row ++ [t] ∧ (t = .semicolon ∨ t = .closeBrace) := by
  induction s with
  | empty => exact ⟨[], .semicolon, rfl, Or.inl rfl⟩
  | block body => exact ⟨.openBrace :: tokensOf body, .closeBrace, rfl, Or.inr rfl⟩
  | call name arguments => exact ⟨_, .semicolon, rfl, Or.inl rfl⟩
  | callBlock name arguments body =>
    refine ⟨callTokens name arguments ++ .openBrace :: tokensOf body, .closeBrace, ?_, Or.inr rfl⟩
    rw [Statement.tokens, List.append_assoc, List.cons_append]
  | callNext name arguments next ih =>
    obtain ⟨row, t, hrow, ht⟩ := ih
    refine ⟨callTokens name arguments ++ row, t, ?_, ht⟩
    rw [Statement.tokens, hrow, List.append_assoc]

/-- A script that starts with the layout of a statement goes on after it. -/
theorem read_append_of_readOrSkip (unit : LengthUnit) {text : String}
    (hlayout : Layout s.tokens text.toList) (hcode : regionAfter .code text.toList = .code)
    (rest : String) {nodes : List Node}
    (hread : readOrSkip outermost (s.tokens ++ tokenize rest.toList) =
      (nodes, tokenize rest.toList)) :
    read unit (text ++ rest) = solidsOf unit.factor nodes ++ read unit rest := by
  have hlast : ∀ t ∈ s.tokens.getLast?, t.isWordlike = false := by
    obtain ⟨row, t, hrow, ht⟩ := s.exists_last
    rw [hrow, List.getLast?_concat]
    rintro u hu
    obtain rfl := Option.some.inj hu
    rcases ht with rfl | rfl <;> rfl
  obtain ⟨t, ts, hts, ht⟩ := s.head?_tokens (tokenize rest.toList)
  rw [hts] at hread
  rw [read, parse, String.toList_append, tokenize_append_of_layout hlayout hcode hlast, hts,
    readAll_of_ne ht, hread, List.flatMap_append, solidsOf_eq_flatMap]
  rfl

/-- **The limit on nesting is exact, and it is local.**  A cube of a finite scale above zero that is
wrapped in up to 256 levels is read as its box, and the script goes on after it; where it is wrapped
in more, the script is what follows it. -/
theorem read_wrapped_append (unit : LengthUnit) {n : Value} {x : Float}
    (hn : n.toFloat? = some x) (hscale : Solid.validScale (x / unit.factor))
    (hs : Wrapped (cubeOf n) levels s) {text : String} (hlayout : Layout s.tokens text.toList)
    (hcode : regionAfter .code text.toList = .code) (rest : String) :
    read unit (text ++ rest) =
      if levels ≤ 256 then ⟨.box, x / unit.factor⟩ :: read unit rest else read unit rest := by
  by_cases hlevels : levels ≤ 256
  · have hdepth : s.depth ≤ deepest :=
      Nat.le_trans (hs.depth_le (depth_cubeOf hn)) hlevels
    have hread : readOrSkip outermost (s.tokens ++ tokenize rest.toList) =
        (s.nodes, tokenize rest.toList) := by
      rw [readOrSkip, outermost, s.readsBack deepest hdepth]
    have hsolids : solidsOf unit.factor s.nodes = [⟨.box, x / unit.factor⟩] := by
      rw [solidsOf_eq_flatMap, List.flatMap_def, ← contributions_eq_map,
        hs.contributions (contributions_cubeOf hn hscale)]
      rfl
    rw [if_pos hlevels, read_append_of_readOrSkip unit hlayout hcode rest hread, hsolids]
    rfl
  · obtain ⟨nodes, hread, hnone⟩ := (hs.leavesNothing unit.factor
      (Nat.lt_of_not_le hlevels)).readOrSkip (tokenize rest.toList)
    rw [if_neg hlevels, read_append_of_readOrSkip unit hlayout hcode rest hread, hnone]
    rfl

/-- A call before a cube in so many blocks. -/
def braced : Nat → Statement
  | 0 => .callNext "difference" [⟨none, .vector [.word "a"]⟩] (cubeOf (.number false ⟨2, 0⟩))
  | n + 1 => .block [braced n]

/-- The text of a call before a cube in so many blocks. -/
def bracedText : Nat → List Char
  | 0 => "difference([a])cube(2);".toList
  | n + 1 => '{' :: (bracedText n ++ ['}'])

theorem bracedText_succ (n : Nat) : bracedText (n + 1) = '{' :: (bracedText n ++ ['}']) := rfl

theorem wrapped_braced (n : Nat) :
    Wrapped (cubeOf (.number false ⟨2, 0⟩)) (n + 1) (braced n) := by
  induction n with
  | zero => exact .callNext (by decide) (by decide) rfl .core
  | succ n ih => exact .block ih

theorem layout_braced (n : Nat) {ts : List Token} {cs : List Char} (h : Layout ts cs) :
    Layout ((braced n).tokens ++ ts) (bracedText n ++ cs) := by
  induction n generalizing ts cs with
  | zero =>
    have hnumber : Layout (.number ⟨2, 0⟩ :: .closeParen :: .semicolon :: ts)
        (['2'] ++ ')' :: ';' :: cs) :=
      .token (.number rfl (by decide)) (fun _ => endsWord_cons (by decide) _)
        (.mark rfl (.mark rfl h))
    have hcube : Layout (.word "cube" :: .openParen :: .number ⟨2, 0⟩ :: _)
        ("cube".toList ++ '(' :: _) :=
      .word rfl (endsWord_cons (by decide) _) (.mark rfl hnumber)
    have hargument : Layout (.word "a" :: .closeBracket :: .closeParen :: _)
        ("a".toList ++ ']' :: ')' :: _) :=
      .word rfl (endsWord_cons (by decide) _) (.mark rfl (.mark rfl hcube))
    exact .word rfl (endsWord_cons (by decide) _) (.mark rfl (.mark rfl hargument))
  | succ n ih =>
    have hinner := ih (Layout.mark (c := '}') rfl h)
    have htokens : (braced (n + 1)).tokens ++ ts =
        .openBrace :: ((braced n).tokens ++ .closeBrace :: ts) := by
      simp [braced, Statement.tokens, tokensOf]
    rw [htokens, bracedText_succ, List.cons_append, List.append_assoc, List.singleton_append]
    exact .mark rfl hinner

theorem regionAfter_bracedText (n : Nat) : regionAfter .code (bracedText n) = .code := by
  have hslash : '/' ∉ bracedText n := by
    induction n with
    | zero => decide
    | succ n ih =>
      rw [bracedText_succ, List.mem_cons, List.mem_append, List.mem_singleton]
      rintro (h | h | h)
      · exact absurd h (by decide)
      · exact ih h
      · exact absurd h (by decide)
  have hregion := regionAfter_append_of_ne (fun c hc => ne_of_mem_of_not_mem hc hslash) []
  rwa [List.append_nil] at hregion

theorem read_wrapped_append_braced :
    ∃ x, (Value.number false ⟨2, 0⟩).toFloat? = some x ∧
      Solid.validScale (x / LengthUnit.centimeters.factor) ∧
      (∀ n, Wrapped (cubeOf (.number false ⟨2, 0⟩)) (n + 1) (braced n) ∧
        Layout (braced n).tokens (String.ofList (bracedText n)).toList ∧
        regionAfter .code (String.ofList (bracedText n)).toList = .code) ∧
      read .centimeters (String.ofList (bracedText 255) ++ "sphere(1") =
        ⟨.box, x / LengthUnit.centimeters.factor⟩ :: read .centimeters "sphere(1" ∧
      read .centimeters (String.ofList (bracedText 256) ++ "sphere(1") =
        read .centimeters "sphere(1" := by
  have hlayout (n : Nat) : Layout (braced n).tokens (String.ofList (bracedText n)).toList := by
    simpa using layout_braced n .nil
  have hcode (n : Nat) : regionAfter .code (String.ofList (bracedText n)).toList = .code := by
    rw [String.toList_ofList]
    exact regionAfter_bracedText n
  have hscale : Solid.validScale
      ((⟨2, 0⟩ : Decimal).toFloat / LengthUnit.centimeters.factor) := by decide +kernel
  refine ⟨_, rfl, hscale, fun n => ⟨wrapped_braced n, hlayout n, hcode n⟩, ?_, ?_⟩
  · rw [read_wrapped_append .centimeters rfl hscale (wrapped_braced 255) (hlayout 255)
      (hcode 255), if_pos (by decide)]
    rfl
  · rw [read_wrapped_append .centimeters rfl hscale (wrapped_braced 256) (hlayout 256)
      (hcode 256), if_neg (by decide)]

end SolidScene.Script
