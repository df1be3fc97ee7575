import SolidScene.Proofs.Script.Recovery
import SolidScene.Proofs.Script.Walk

/-!
# Reading comes to an end

Each walk with a cursor stops, and stops as the reader of the same part of the grammar does where
there is as much room (`StopsAs`, `Follows`): with the same value or with none, at the tokens that
the reader leaves, and at the depth it started from.  For statements this is shown level by level,
from the deepest one out: what is read one level further in takes tokens or fails, so the loop over
a block has fewer tokens before it each time.

`reading_ends` gathers what follows: a statement, or what is skipped in its place, takes at least
one token, and a script is read up to the end of its tokens, never deeper than 256 levels.
-/

namespace SolidScene.Script

/-! ### Stops -/

/-- A walk from a cursor stops as an outcome of reading says: with its value or with none, at the
tokens that it leaves, within the tokens and the levels, and at the level of the cursor. -/
inductive StopsAs {α : Type} (tokens : List Token) (c : Cursor) :
    Outcome α → Option (Stop α) → Prop
  | found {v : α} {rest : List Token} {c' : Cursor} (hrest : c'.left tokens = rest)
      (hinside : c'.Inside tokens) (hdepth : c'.depth = c.depth) :
      StopsAs tokens c (.found v rest) (some ⟨some v, c'⟩)
  | failed {rest : List Token} {c' : Cursor} (hrest : c'.left tokens = rest)
      (hinside : c'.Inside tokens) (hdepth : c'.depth = c.depth) :
      StopsAs tokens c (.failed rest) (some ⟨none, c'⟩)

/-- Walks that stop as a reader does, where there is a given room. -/
def Follows {α : Type} (tokens : List Token) (room : Nat) (r : Reader α)
    (walk : Cursor → Option (Stop α)) : Prop :=
  ∀ c : Cursor, c.Inside tokens → c.room = room →
    StopsAs tokens c (r.run (c.left tokens)) (walk c)

section Follow

variable {tokens : List Token} {c c' : Cursor} {room : Nat}

theorem StopsAs.of_depth_eq {α : Type} {o : Outcome α} {walk : Option (Stop α)}
    (h : StopsAs tokens c' o walk) (hdepth : c'.depth = c.depth) : StopsAs tokens c o walk := by
  cases h with
  | found hrest hinside h => exact .found hrest hinside (h.trans hdepth)
  | failed hrest hinside h => exact .failed hrest hinside (h.trans hdepth)

theorem StopsAs.cases {α : Type} {o : Outcome α} {walk : Option (Stop α)}
    (h : StopsAs tokens c o walk) :
    (∃ v c', walk = some ⟨some v, c'⟩ ∧ o = .found v (c'.left tokens) ∧ c'.Inside tokens ∧
        c'.depth = c.depth) ∨
      ∃ c', walk = some ⟨none, c'⟩ ∧ o = .failed (c'.left tokens) ∧ c'.Inside tokens ∧
        c'.depth = c.depth := by
  cases h with
  | found hrest hinside h => exact Or.inl ⟨_, _, rfl, by rw [hrest], hinside, h⟩
  | failed hrest hinside h => exact Or.inr ⟨_, rfl, by rw [hrest], hinside, h⟩

/-- A loop over items follows the reader of a list. -/
theorem stopsAs_readItemsFrom {α : Type} {item : Reader α} {close : Token}
    {walk : Cursor → Option (Stop α)} (hitem : Follows tokens room item walk)
    {loop : List α → Cursor → Option (Stop (List α))}
    (hloop : ∀ found c, loop found c = (walk c).bind fun s =>
      match s.value with
      | none => some ⟨none, s.cursor⟩
      | some v =>
        if s.cursor.current? tokens = some .comma then
          loop (found ++ [v]) (s.cursor.advance tokens)
        else if s.cursor.current? tokens = some close then
          some ⟨some (found ++ [v]), s.cursor.advance tokens⟩
        else some ⟨none, s.cursor⟩)
    (found : List α) (hc : c.Inside tokens) (hroom : c.room = room) :
    StopsAs tokens c (readItemsFrom item close found.reverse (c.left tokens)) (loop found c) := by
  induction hlength : (c.left tokens).length using Nat.strongRecOn generalizing c found with
  | ind n ih =>
    rw [hloop, readItemsFrom_eq]
    obtain ⟨v, c', hwalk, hrun, hc', hdepth⟩ | ⟨c', hwalk, hrun, hc', hdepth⟩ :=
      (hitem c hc hroom).cases
    · -- The item has taken tokens, so fewer are left for the items after it.
      have hshorter : (c'.left tokens).length < n := hlength ▸ item.shorter hrun
      rw [hwalk, hrun, Option.bind_some]
      cases hleft : c'.left tokens with
      | nil =>
        simp only [Cursor.current?_of_nil hleft, reduceCtorEq, if_false]
        exact .failed hleft hc' hdepth
      | cons t rest =>
        have hnext := Cursor.left_advance_of_cons hleft
        have hdepth' : (c'.advance tokens).depth = c.depth := by
          rw [Cursor.depth_advance, hdepth]
        simp only [Cursor.current?_of_cons hleft, Option.some.injEq]
        by_cases hcomma : t = .comma
        · have hlt : ((c'.advance tokens).left tokens).length < n := by
            rw [hnext]
            rw [hleft, List.length_cons] at hshorter
            exact Nat.lt_of_succ_lt hshorter
          have hstep := ih _ hlt (found ++ [v]) hc'.advance
            ((Cursor.room_of_depth_eq hdepth').trans hroom) rfl
          rw [hnext, List.reverse_append] at hstep
          rw [if_pos hcomma, if_pos hcomma]
          exact hstep.of_depth_eq hdepth'
        · rw [if_neg hcomma, if_neg hcomma]
          by_cases hclose : t = close
          · rw [if_pos hclose, if_pos hclose]
            simpa using StopsAs.found (v := found ++ [v]) hnext hc'.advance hdepth'
          · rw [if_neg hclose, if_neg hclose]
            exact .failed hleft hc' hdepth
    · rw [hwalk, hrun]
      exact .failed rfl hc' hdepth

/-- A list whose closing token may stand at its start. -/
theorem stopsAs_readItems {α : Type} {item : Reader α} {close : Token}
    {loop : Cursor → Option (Stop (List α))}
    (hloop : StopsAs tokens c (readItemsFrom item close [] (c.left tokens)) (loop c))
    (hc : c.Inside tokens) :
    StopsAs tokens c (readItems item close (c.left tokens))
      (if c.current? tokens = some close then some ⟨some [], c.advance tokens⟩ else loop c) := by
  cases hleft : c.left tokens with
  | nil =>
    rw [Cursor.current?_of_nil hleft, if_neg nofun, readItems, ← hleft]
    exact hloop
  | cons t rest =>
    rw [Cursor.current?_of_cons hleft, readItems]
    by_cases hclose : t = close
    · rw [if_pos hclose, if_pos (congrArg some hclose)]
      exact .found (Cursor.left_advance_of_cons hleft) hc.advance (Cursor.depth_advance _ _)
    · rw [if_neg hclose, if_neg fun h => hclose (Option.some.inj h), ← hleft]
      exact hloop

/-! ### Values and arguments -/

/-- The items of a vector are read as the items of a list, once each of them is read as a value. -/
theorem stopsAs_walkVector (h : Follows tokens room (value room) (walkValue tokens))
    (hc : c.Inside tokens) (hroom : c.room = room) :
    StopsAs tokens c (readItems (value room) .closeBracket (c.left tokens))
      (walkVector tokens c) := by
  rw [walkVector]
  refine stopsAs_readItems (stopsAs_readItemsFrom h (fun found c => ?_) [] hc hroom) hc
  rw [walkVectorFrom]
  dsimp only
  rcases walkValue tokens c with _ | ⟨_ | v, c'⟩ <;> rfl

theorem stopsAs_walkValue {inner : Option (Reader Value)}
    (hvector : ∀ c' : Cursor, c'.Inside tokens → c'.room + 1 = c.room → ∃ r, inner = some r ∧
      StopsAs tokens c' (readItems r .closeBracket (c'.left tokens)) (walkVector tokens c'))
    (hnone : c.room = 0 → inner = none) (hc : c.Inside tokens) :
    StopsAs tokens c (runValue inner (c.left tokens)) (walkValue tokens c) := by
  rw [walkValue]
  cases hleft : c.left tokens with
  | nil =>
    rw [Cursor.current?_of_nil hleft]
    exact .failed hleft hc rfl
  | cons t rest =>
    have hnext := Cursor.left_advance_of_cons hleft
    have hdepth : (c.advance tokens).depth = c.depth := c.depth_advance tokens
    rw [Cursor.current?_of_cons hleft]
    cases t with
    | number x => exact .found hnext hc.advance hdepth
    | word name => exact .found hnext hc.advance hdepth
    | minus =>
      cases rest with
      | nil =>
        simp only [Cursor.current?_of_nil hnext]
        exact .failed hnext hc.advance hdepth
      | cons u rest =>
        simp only [Cursor.current?_of_cons hnext]
        cases u with
        | number x =>
          exact .found (Cursor.left_advance_of_cons hnext) hc.advance.advance
            ((Cursor.depth_advance _ _).trans hdepth)
        | _ => exact .failed hnext hc.advance hdepth
    | openBracket =>
      have hroom : (c.advance tokens).room = c.room := Cursor.room_of_depth_eq hdepth
      obtain ⟨henter, hzero⟩ | ⟨c', henter, hc', hsame, hdeeper, hless⟩ := hc.advance.enter
      · obtain rfl := hnone (hroom ▸ hzero)
        simp only [henter]
        exact .failed hnext hc.advance hdepth
      · obtain ⟨r, rfl, hitems⟩ := hvector c' hc' (hless.symm.trans hroom)
        rw [hsame, hnext] at hitems
        simp only [henter, runValue]
        have hout {c'' : Cursor} (h : c''.depth = c'.depth) : c''.leave.depth = c.depth := by
          rw [Cursor.leave, h, hdeeper, hdepth, Nat.add_sub_cancel]
        obtain ⟨items, c'', hwalk, hread, hinside, hsame⟩ | ⟨c'', hwalk, hread, hinside, hsame⟩ :=
          hitems.cases
        · rw [hwalk, hread]
          exact .found rfl hinside.leave (hout hsame)
        · rw [hwalk, hread]
          exact .failed rfl hinside.leave (hout hsame)
    | _ => exact .failed hleft hc rfl

theorem follows_walkValue (room : Nat) :
    Follows tokens room (value room) (walkValue tokens) := by
  induction room with
  | zero =>
    intro c hc hroom
    rw [run_value]
    refine stopsAs_walkValue (fun c' _ hless => ?_) (fun _ => rfl) hc
    rw [hroom] at hless
    cases hless
  | succ room ih =>
    intro c hc hroom
    rw [run_value]
    refine stopsAs_walkValue (fun c' hc' hless => ⟨value room, rfl, ?_⟩) (fun hzero => ?_) hc
    · rw [hroom] at hless
      exact stopsAs_walkVector ih hc' (Nat.succ.inj hless)
    · rw [hroom] at hzero
      cases hzero

theorem follows_walkArgument (room : Nat) :
    Follows tokens room (argument room) (walkArgument tokens) := by
  intro c hc hroom
  change StopsAs tokens c (runArgument (value room) _) _
  by_cases hname : ∃ name tail, c.left tokens = .word name :: .equals :: tail
  · obtain ⟨name, tail, hleft⟩ := hname
    have hnext := Cursor.left_advance_of_cons hleft
    have hafter := Cursor.left_advance_of_cons hnext
    have hdepth : ((c.advance tokens).advance tokens).depth = c.depth := by
      rw [Cursor.depth_advance, Cursor.depth_advance]
    have hvalue := follows_walkValue room _ hc.advance.advance
      ((Cursor.room_of_depth_eq hdepth).trans hroom)
    rw [hafter] at hvalue
    simp only [walkArgument, Cursor.current?_of_cons hleft, Cursor.current?_of_cons hnext, hleft,
      runArgument]
    obtain ⟨v, c', hwalk, hrun, hc', h⟩ | ⟨c', hwalk, hrun, hc', h⟩ := hvalue.cases
    · rw [hwalk, hrun]
      exact .found rfl hc' (h.trans hdepth)
    · rw [hwalk, hrun]
      exact .failed rfl hc' (h.trans hdepth)
  · have hnone (name : String) (tail : List Token) :
        c.left tokens ≠ .word name :: .equals :: tail := fun h => hname ⟨name, tail, h⟩
    have hwalk : walkArgument tokens c = (walkValue tokens c).bind fun s =>
        some ⟨s.value.map fun v => ⟨none, v⟩, s.cursor⟩ := by
      unfold walkArgument
      split
      · next name hword hequals =>
        refine absurd ?_ (hnone name (((c.advance tokens).advance tokens).left tokens))
        rw [Cursor.left_eq_cons hword, Cursor.left_eq_cons hequals]
      · rfl
    rw [runArgument_of_ne hnone, hwalk]
    obtain ⟨v, c', hwalk, hrun, hc', h⟩ | ⟨c', hwalk, hrun, hc', h⟩ :=
      (follows_walkValue room c hc hroom).cases
    · rw [hwalk, hrun]
      exact .found rfl hc' h
    · rw [hwalk, hrun]
      exact .failed rfl hc' h

theorem stopsAs_walkArguments (hc : c.Inside tokens) :
    StopsAs tokens c (readArguments c.room (c.left tokens)) (walkArguments tokens c) := by
  refine stopsAs_readItems ?_ hc
  refine stopsAs_readItemsFrom (follows_walkArgument c.room) (fun found c => ?_) [] hc rfl
  rw [walkArgumentsFrom]
  rcases walkArgument tokens c with _ | ⟨_ | a, c'⟩ <;> rfl

/-! ### Statements -/

/-- Skipping with a cursor ends, at the tokens after the statement. -/
theorem exists_walkSkip (brackets : Nat) (hc : c.Inside tokens) :
    ∃ c', walkSkip tokens brackets c = some c' ∧
      c'.left tokens = skipStatement brackets (c.left tokens) ∧ c'.Inside tokens ∧
      c'.depth = c.depth := by
  induction hleft : c.left tokens generalizing brackets c with
  | nil =>
    refine ⟨c, ?_, hleft, hc, rfl⟩
    rw [walkSkip, Cursor.current?_of_nil hleft]
  | cons t rest ih =>
    have hdepth : (c.advance tokens).depth = c.depth := c.depth_advance tokens
    have hnext := Cursor.left_advance_of_cons hleft
    have hstep (n : Nat) : ∃ c', walkSkip tokens n (c.advance tokens) = some c' ∧
        c'.left tokens = skipStatement n rest ∧ c'.Inside tokens ∧ c'.depth = c.depth := by
      obtain ⟨c', hwalk, hrest, hinside, h⟩ := ih n hc.advance hnext
      exact ⟨c', hwalk, hrest, hinside, h.trans hdepth⟩
    rw [walkSkip, Cursor.current?_of_cons hleft]
    cases t with
    | closeBrace =>
      simp only [skipStatement]
      split
      · exact ⟨c, rfl, hleft, hc, rfl⟩
      · split
        · exact ⟨c.advance tokens, rfl, hnext, hc.advance, hdepth⟩
        · exact hstep _
    | semicolon =>
      simp only [skipStatement]
      split
      · exact ⟨c.advance tokens, rfl, hnext, hc.advance, hdepth⟩
      · exact hstep _
    | _ => exact hstep _

/-- A statement is read or skipped with a cursor as by its reader. -/
theorem exists_walkOrSkip (h : Follows tokens room (statementReader room) (walkStatement tokens))
    (hc : c.Inside tokens) (hroom : c.room = room) :
    ∃ nodes c', walkOrSkip tokens c = some (nodes, c') ∧
      readOrSkip (statementReader room) (c.left tokens) = (nodes, c'.left tokens) ∧
      c'.Inside tokens ∧ c'.depth = c.depth := by
  rw [walkOrSkip, readOrSkip]
  dsimp only
  obtain ⟨nodes, c', hwalk, hrun, hc', hdepth⟩ | ⟨c', hwalk, hrun, hc', hdepth⟩ :=
    (h c hc hroom).cases
  · rw [hwalk, hrun]
    exact ⟨nodes, c', rfl, rfl, hc', hdepth⟩
  · -- Only the index is set back: the depth is that of `c` because every level was left again.
    have hback : ({ c' with index := c.index } : Cursor).Inside tokens :=
      ⟨hc.index_le, hc'.depth_le, hc'.peak_le⟩
    obtain ⟨c'', hskip, hrest, hinside, h⟩ := exists_walkSkip 0 hback
    refine ⟨[], c'', ?_, ?_, hinside, h.trans hdepth⟩
    · rw [hwalk]
      exact congrArg (Option.bind · fun c => some ([], c)) hskip
    · rw [hrun, hrest]
      rfl

theorem walkBlockFrom_of_ne {t : Token} {rest : List Token} (hleft : c.left tokens = t :: rest)
    (ht : t ≠ .closeBrace) (nodes : List Node) :
    walkBlockFrom tokens nodes c =
      (walkOrSkip tokens c).bind fun (more, c) => walkBlockFrom tokens (nodes ++ more) c := by
  rw [walkBlockFrom, Cursor.current?_of_cons hleft]
  cases t <;> first | rfl | contradiction

theorem stopsAs_walkBlockFrom
    (h : Follows tokens room (statementReader room) (walkStatement tokens)) (nodes : List Node)
    (hc : c.Inside tokens) (hroom : c.room = room) :
    StopsAs tokens c (readBlockFrom (statementReader room) nodes.reverse (c.left tokens))
      (walkBlockFrom tokens nodes c) := by
  induction hlength : (c.left tokens).length using Nat.strongRecOn generalizing c nodes with
  | ind n ih =>
    cases hleft : c.left tokens with
    | nil =>
      rw [walkBlockFrom, Cursor.current?_of_nil hleft, readBlockFrom]
      exact .failed hleft hc rfl
    | cons t rest =>
      by_cases ht : t = .closeBrace
      · subst ht
        rw [walkBlockFrom, Cursor.current?_of_cons hleft, readBlockFrom_closeBrace,
          List.reverse_reverse]
        exact .found (Cursor.left_advance_of_cons hleft) hc.advance (c.depth_advance tokens)
      · obtain ⟨more, c', hwalk, hread, hc', hdepth⟩ := exists_walkOrSkip h hc hroom
        rw [hleft] at hread hlength
        have hlt : (c'.left tokens).length < n := by
          have hshorter := shorter_readOrSkip (statementReader room) ht rest
          rwa [hread, hlength] at hshorter
        have hstep := ih _ hlt (nodes ++ more) hc'
          ((Cursor.room_of_depth_eq hdepth).trans hroom) rfl
        rw [List.reverse_append] at hstep
        rw [readBlockFrom_of_ne _ _ ht, hread, walkBlockFrom_of_ne hleft ht, hwalk]
        exact hstep.of_depth_eq hdepth

/-- What is read one level further in is left again. -/
theorem StopsAs.leave {α : Type} {o : Outcome α} {walk : Option (Stop α)} {inner : Cursor}
    (h : StopsAs tokens inner o walk) (hdepth : inner.depth = c.depth + 1) :
    StopsAs tokens c o (walk.bind fun s => some ⟨s.value, s.cursor.leave⟩) := by
  have hout {c' : Cursor} (h : c'.depth = inner.depth) : c'.leave.depth = c.depth := by
    rw [Cursor.leave, h, hdepth, Nat.add_sub_cancel]
  cases h with
  | found hrest hinside h => exact .found hrest hinside.leave (hout h)
  | failed hrest hinside h => exact .failed hrest hinside.leave (hout h)

/-- Walks over statements that follow their reader one level further in than a given room. -/
def FollowsWithin (tokens : List Token) (room : Nat) : Prop :=
  ∀ less, room = less + 1 → Follows tokens less (statementReader less) (walkStatement tokens)

theorem innerStatement_of_succ {n : Nat} (h : c.room = n + 1) :
    innerStatement c.room = some (statementReader n) := by
  rw [h]
  rfl

theorem innerStatement_of_zero (h : c.room = 0) : innerStatement c.room = none := by
  rw [h]
  rfl

theorem stopsAs_walkBlock (h : FollowsWithin tokens c.room) (hc : c.Inside tokens) :
    StopsAs tokens c (runBlock (innerStatement c.room) (c.left tokens)) (walkBlock tokens c) := by
  rw [walkBlock]
  obtain ⟨henter, hzero⟩ | ⟨inner, henter, hinner, hleft, hdepth, hroom⟩ := hc.enter
  · rw [henter, innerStatement_of_zero hzero]
    exact .failed rfl hc rfl
  · have hblock := stopsAs_walkBlockFrom (h inner.room hroom) [] hinner rfl
    rw [hleft] at hblock
    rw [henter, innerStatement_of_succ hroom]
    exact hblock.leave hdepth

/-- A statement one level further in, as a call goes on with it. -/
theorem stopsAs_nextStatement (h : FollowsWithin tokens c.room) (hc : c.Inside tokens) :
    StopsAs tokens c
      (match innerStatement c.room with
        | none => .failed (c.left tokens)
        | some inner => inner.run (c.left tokens))
      (match c.enter? with
        | none => some ⟨none, c⟩
        | some inner => (walkStatement tokens inner).bind fun s =>
          some ⟨s.value, s.cursor.leave⟩) := by
  obtain ⟨henter, hzero⟩ | ⟨inner, henter, hinner, hsame, hdeeper, hless⟩ := hc.enter
  · rw [henter, innerStatement_of_zero hzero]
    exact .failed rfl hc rfl
  · have hstatement := h inner.room hless inner hinner rfl
    rw [hsame] at hstatement
    rw [henter, innerStatement_of_succ hless]
    exact hstatement.leave hdeeper

theorem stopsAs_walkChildren (h : FollowsWithin tokens c.room) (hc : c.Inside tokens) :
    StopsAs tokens c (runChildren (innerStatement c.room) (c.left tokens))
      (walkChildren tokens c) := by
  rw [walkChildren]
  cases hleft : c.left tokens with
  | nil =>
    rw [Cursor.current?_of_nil hleft]
    exact .found hleft hc rfl
  | cons t rest =>
    have hnext := Cursor.left_advance_of_cons hleft
    have hdepth := c.depth_advance tokens
    have hroom := Cursor.room_of_depth_eq hdepth
    have hcall := stopsAs_nextStatement h hc
    rw [hleft] at hcall
    rw [Cursor.current?_of_cons hleft]
    cases t with
    | semicolon => exact .found hnext hc.advance hdepth
    | openBrace =>
      have hblock := stopsAs_walkBlock (hroom.symm ▸ h) hc.advance
      rw [hnext, hroom] at hblock
      exact hblock.of_depth_eq hdepth
    | _ => exact hcall

theorem stopsAs_walkStatement (h : FollowsWithin tokens c.room) (hc : c.Inside tokens) :
    StopsAs tokens c (runStatement c.room (innerStatement c.room) (c.left tokens))
      (walkStatement tokens c) := by
  rw [walkStatement]
  cases hleft : c.left tokens with
  | nil =>
    rw [Cursor.current?_of_nil hleft]
    exact .failed hleft hc rfl
  | cons t rest =>
    have hnext := Cursor.left_advance_of_cons hleft
    have hdepth := c.depth_advance tokens
    have hroom := Cursor.room_of_depth_eq hdepth
    rw [Cursor.current?_of_cons hleft]
    cases t with
    | semicolon => exact .found hnext hc.advance hdepth
    | openBrace =>
      have hblock := stopsAs_walkBlock (hroom.symm ▸ h) hc.advance
      rw [hnext, hroom] at hblock
      exact hblock.of_depth_eq hdepth
    | word name =>
      cases rest with
      | nil =>
        rw [Cursor.current?_of_nil hnext]
        exact .failed hleft hc rfl
      | cons u rest =>
        rw [Cursor.current?_of_cons hnext]
        cases u with
        | openParen =>
          have hafter := Cursor.left_advance_of_cons hnext
          have hdepth' := ((c.advance tokens).depth_advance tokens).trans hdepth
          have hroom' := Cursor.room_of_depth_eq hdepth'
          have hargs := stopsAs_walkArguments hc.advance.advance
          rw [hafter, hroom'] at hargs
          simp only [runStatement]
          obtain ⟨arguments, c', hwalk, hread, hc', hsame⟩ | ⟨c', hwalk, hread, hc', hsame⟩ :=
            hargs.cases
          · have hsame := hsame.trans hdepth'
            have hchildren := stopsAs_walkChildren
              ((Cursor.room_of_depth_eq hsame).symm ▸ h) hc'
            rw [Cursor.room_of_depth_eq hsame] at hchildren
            rw [hwalk, hread]
            simp only [Option.bind_eq_bind, Option.bind_some]
            obtain ⟨children, c'', hwalk, hread, hc'', h⟩ | ⟨c'', hwalk, hread, hc'', h⟩ :=
              hchildren.cases
            · rw [hwalk, hread]
              exact .found rfl hc'' (h.trans hsame)
            · rw [hwalk, hread]
              exact .failed rfl hc'' (h.trans hsame)
          · rw [hwalk, hread]
            exact .failed rfl hc' (hsame.trans hdepth')
        | _ => exact .failed hleft hc rfl
    | _ => exact .failed hleft hc rfl

theorem follows_walkStatement (tokens : List Token) (room : Nat) :
    Follows tokens room (statementReader room) (walkStatement tokens) := by
  induction room with
  | zero =>
    intro c hc hroom
    rw [run_statementReader, ← hroom]
    refine stopsAs_walkStatement (fun less h => ?_) hc
    rw [hroom] at h
    cases h
  | succ room ih =>
    intro c hc hroom
    rw [run_statementReader, ← hroom]
    refine stopsAs_walkStatement (fun less h => ?_) hc
    rw [hroom] at h
    obtain rfl := Nat.succ.inj h
    exact ih

/-! ### Scripts -/

theorem walkAllFrom_of_ne {t : Token} {rest : List Token} (hleft : c.left tokens = t :: rest)
    (ht : t ≠ .closeBrace) (nodes : List Node) :
    walkAllFrom tokens nodes c =
      (walkOrSkip tokens c).bind fun (more, c) => walkAllFrom tokens (nodes ++ more) c := by
  rw [walkAllFrom, Cursor.current?_of_cons hleft]
  cases t <;> first | rfl | contradiction

theorem exists_walkAllFrom (nodes : List Node) (hc : c.Inside tokens) (hdepth : c.depth = 0) :
    ∃ c', walkAllFrom tokens nodes c = some (nodes ++ readAll (c.left tokens), c') ∧
      c'.left tokens = [] ∧ c'.Inside tokens ∧ c'.depth = 0 := by
  induction hleft : c.left tokens using readAll_induct generalizing c nodes with
  | nil =>
    refine ⟨c, ?_, hleft, hc, hdepth⟩
    rw [walkAllFrom, Cursor.current?_of_nil hleft, readAll_nil, List.append_nil]
  | closeBrace ts ih =>
    have hnext := Cursor.left_advance_of_cons hleft
    obtain ⟨c', hwalk, hend⟩ := ih nodes hc.advance ((c.depth_advance tokens).trans hdepth) hnext
    refine ⟨c', ?_, hend⟩
    rw [walkAllFrom, Cursor.current?_of_cons hleft, readAll_closeBrace]
    exact hwalk
  | statement t ts ht ih =>
    have hroom : c.room = deepest := by rw [Cursor.room, hdepth, Nat.sub_zero]
    obtain ⟨more, c', hwalk, hread, hc', h⟩ :=
      exists_walkOrSkip (follows_walkStatement tokens deepest) hc hroom
    rw [hleft] at hread
    change readOrSkip outermost (t :: ts) = _ at hread
    obtain ⟨c'', hrest, hend⟩ := ih (nodes ++ more) hc' (h.trans hdepth) (by rw [hread])
    refine ⟨c'', ?_, hend⟩
    rw [walkAllFrom_of_ne hleft ht, hwalk, readAll_of_ne ht, ← List.append_assoc, hread]
    rw [hread] at hrest
    exact hrest

end Follow

/-- **Reading comes to an end.**  Where a token other than a closing brace stands, a statement or
what is skipped in its place takes tokens, and what is left is what its reader leaves; the loop over
a block stops wherever it starts; and a script is read to the end of its tokens.  The depth
afterwards is the depth before, and it is never above 256 in between. -/
theorem reading_ends (tokens : List Token) :
    (∀ (c : Cursor) (t : Token), c.current? tokens = some t → t ≠ .closeBrace → c.depth ≤ 256 →
      c.peak ≤ 256 →
      ∃ nodes c', walkOrSkip tokens c = some (nodes, c') ∧
        readOrSkip (statementReader (256 - c.depth)) (tokens.drop c.index) =
          (nodes, tokens.drop c'.index) ∧
        c'.depth = c.depth ∧ c.index < c'.index ∧ c'.index ≤ tokens.length ∧ c'.peak ≤ 256) ∧
    (∀ (c : Cursor) (nodes : List Node), c.index ≤ tokens.length → c.depth ≤ 256 →
      c.peak ≤ 256 →
      ∃ s, walkBlockFrom tokens nodes c = some s ∧ s.cursor.depth = c.depth ∧
        s.cursor.index ≤ tokens.length ∧ s.cursor.peak ≤ 256) ∧
    ∃ c', walkAllFrom tokens [] .start = some (readAll tokens, c') ∧ c'.index = tokens.length ∧
      c'.depth = 0 ∧ c'.peak ≤ 256 := by
  refine ⟨fun c t hcurrent ht hdepth hpeak => ?_, fun c nodes hindex hdepth hpeak => ?_, ?_⟩
  · have hindex : c.index < tokens.length := (List.getElem?_eq_some_iff.1 hcurrent).1
    have hc : c.Inside tokens := ⟨Nat.le_of_lt hindex, hdepth, hpeak⟩
    obtain ⟨nodes, c', hwalk, hread, hc', hsame⟩ :=
      exists_walkOrSkip (follows_walkStatement tokens c.room) hc rfl
    refine ⟨nodes, c', hwalk, hread, hsame, ?_, hc'.index_le, hc'.peak_le⟩
    have hleft := Cursor.left_eq_cons hcurrent
    have hshorter : (c'.left tokens).length < (c.left tokens).length := by
      have h := shorter_readOrSkip (statementReader c.room) ht ((c.advance tokens).left tokens)
      rwa [← hleft, hread] at h
    rw [Cursor.length_left, Cursor.length_left] at hshorter
    omega
  · obtain ⟨v, c', hwalk, -, hc', hsame⟩ | ⟨c', hwalk, -, hc', hsame⟩ :=
      (stopsAs_walkBlockFrom (follows_walkStatement tokens c.room) nodes
        ⟨hindex, hdepth, hpeak⟩ rfl).cases
    · exact ⟨_, hwalk, hsame, hc'.index_le, hc'.peak_le⟩
    · exact ⟨_, hwalk, hsame, hc'.index_le, hc'.peak_le⟩
  · have hstart : Cursor.start.Inside tokens :=
      ⟨Nat.zero_le _, Nat.zero_le _, Nat.zero_le _⟩
    obtain ⟨c', hwalk, hend, hc', hdepth⟩ := exists_walkAllFrom [] hstart rfl
    refine ⟨c', hwalk, Nat.le_antisymm hc'.index_le ?_, hdepth, hc'.peak_le⟩
    exact List.drop_eq_nil_iff.1 hend

/-- A block that is not closed and in which brackets of two kinds cross: `{ ) ; f ( [ } ]`. -/
def crossedBlock : List Token :=
  [.openBrace, .closeParen, .semicolon, .word "f", .openParen, .openBracket, .closeBrace,
    .closeBracket]

theorem reading_ends_crossedBlock :
    (Cursor.start.current? crossedBlock = some .openBrace ∧ Token.openBrace ≠ .closeBrace ∧
      Cursor.start.depth ≤ 256 ∧ Cursor.start.peak ≤ 256 ∧
      ∃ nodes c', walkOrSkip crossedBlock .start = some (nodes, c') ∧
        readOrSkip (statementReader (256 - Cursor.start.depth))
          (crossedBlock.drop Cursor.start.index) = (nodes, crossedBlock.drop c'.index) ∧
        c'.depth = Cursor.start.depth ∧ Cursor.start.index < c'.index ∧
        c'.index ≤ crossedBlock.length ∧ c'.peak ≤ 256) ∧
    ((⟨3, 256, 256⟩ : Cursor).index ≤ crossedBlock.length ∧
      ∃ s, walkBlockFrom crossedBlock [] ⟨3, 256, 256⟩ = some s ∧ s.cursor.depth = 256 ∧
        s.cursor.index ≤ crossedBlock.length ∧ s.cursor.peak ≤ 256) :=
  ⟨⟨rfl, nofun, by decide, by decide,
      (reading_ends crossedBlock).1 .start .openBrace rfl nofun (by decide) (by decide)⟩,
    by decide,
    (reading_ends crossedBlock).2.1 ⟨3, 256, 256⟩ [] (by decide) (Nat.le_refl _) (Nat.le_refl _)⟩

end SolidScene.Script
