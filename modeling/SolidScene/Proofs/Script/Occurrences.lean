import SolidScene.Proofs.Script.Reader
import SolidScene.Script.Meaning

/-!
# Nothing comes from nowhere

Reading a script goes back over tokens: a statement that is not well formed is read up to its fault,
and then its parts are read again as statements of their own.  `occurrences` lists the solids of all
calls in the text, wherever they stand, with no regard to statements.  The solids that are read are
a sublist of that list (`read_sublist_occurrences`), so none is made up, read twice or moved.

The invariant is carried from reader to reader by `Reader.InOrder`: the solids of what is read, with
all that occur in what is left, are among those that occur in what was given.
-/

namespace SolidScene.Script

/-! ### Occurrences -/

/-- The solid of the call that stands at the start of some tokens, if one does. -/
def callSolid? (factor : Float) : List Token → Option Solid
  | .word name :: .openParen :: ts =>
    match readArguments deepest ts with
    | .found arguments _ => (kindOfCall? name).bind fun kind => solid? factor kind arguments
    | .failed _ => none
  | _ => none

/-- The solids of all calls in some tokens, in the order of the tokens. -/
def occurrences (factor : Float) : List Token → List Solid
  | [] => []
  | t :: ts => (callSolid? factor (t :: ts)).toList ++ occurrences factor ts

variable {factor : Float} {ts rest : List Token}

theorem occurrences_sublist_cons (t : Token) (ts : List Token) :
    (occurrences factor ts).Sublist (occurrences factor (t :: ts)) :=
  List.sublist_append_right _ _

theorem occurrences_sublist (h : rest <:+ ts) :
    (occurrences factor rest).Sublist (occurrences factor ts) := by
  obtain ⟨taken, rfl⟩ := h
  induction taken with
  | nil => exact List.Sublist.refl _
  | cons t taken ih => exact ih.trans (occurrences_sublist_cons t _)

/-! ### Room for vectors -/

/-- A reader that finds all that another one finds. -/
def Reader.Covers {α : Type} (r inner : Reader α) : Prop :=
  ∀ {ts : List Token} {v : α} {rest : List Token},
    inner.run ts = .found v rest → r.run ts = .found v rest

theorem readItemsFrom_covers {α : Type} {item item' : Reader α} (h : item'.Covers item)
    {close : Token} {found values : List α}
    (hfound : readItemsFrom item close found ts = .found values rest) :
    readItemsFrom item' close found ts = .found values rest := by
  fun_induction readItemsFrom item close found ts with
  | case1 => contradiction
  | case2 found ts v tail hrun ih =>
    rw [readItemsFrom_eq, h hrun]
    simpa using ih hfound
  | case3 found ts v tail hrun hcomma =>
    rw [readItemsFrom_eq, h hrun]
    simpa [hcomma] using hfound
  | case4 => contradiction
  | case5 => contradiction

theorem readItems_covers {α : Type} {item item' : Reader α} (h : item'.Covers item)
    {close : Token} {values : List α} (hfound : readItems item close ts = .found values rest) :
    readItems item' close ts = .found values rest := by
  unfold readItems at hfound ⊢
  split at hfound
  · split at hfound
    · next hclose => rwa [if_pos hclose]
    · next hclose =>
      rw [if_neg hclose]
      exact readItemsFrom_covers h hfound
  · exact readItemsFrom_covers h hfound

theorem runValue_covers {inner inner' : Option (Reader Value)}
    (h : ∀ r ∈ inner, ∃ r' ∈ inner', r'.Covers r) {v : Value}
    (hfound : runValue inner ts = .found v rest) : runValue inner' ts = .found v rest := by
  unfold runValue at hfound
  split at hfound
  · exact hfound
  · exact hfound
  · contradiction
  · exact hfound
  · split at hfound
    · contradiction
    · next item =>
      obtain ⟨item', rfl, hcovers⟩ := h item rfl
      split at hfound
      · next hitems =>
        simp only [runValue, readItems_covers hcovers hitems]
        exact hfound
      · contradiction
  · contradiction

/-- More room for vectors does not change what is found. -/
theorem value_covers {room room' : Nat} (h : room ≤ room') : (value room').Covers (value room) := by
  -- The room of both readers shrinks together, level by level.
  induction room generalizing room' with
  | zero =>
    intro ts v rest hfound
    rw [run_value] at hfound ⊢
    exact runValue_covers (fun r hr => absurd hr (Option.not_mem_none r)) hfound
  | succ room ih =>
    intro ts v rest hfound
    obtain ⟨room', rfl⟩ := Nat.exists_eq_add_one.2 (Nat.lt_of_lt_of_le (Nat.succ_pos room) h)
    rw [run_value] at hfound ⊢
    refine runValue_covers (fun r hr => ⟨value room', rfl, ?_⟩) hfound
    obtain rfl := Option.some.inj hr
    exact ih (Nat.le_of_succ_le_succ h)

theorem argument_covers {room room' : Nat} (h : room ≤ room') :
    (argument room').Covers (argument room) := by
  intro ts a rest hfound
  change runArgument (value room) ts = _ at hfound
  change runArgument (value room') ts = _
  unfold runArgument at hfound
  split at hfound
  · split at hfound
    · next hv =>
      simp only [runArgument, value_covers h hv]
      exact hfound
    · contradiction
  · split at hfound
    · next hname _ _ _ hv =>
      rw [runArgument]
      · rw [value_covers h hv]
        exact hfound
      · exact hname
    · contradiction

/-- The arguments of a call are the same at every level at which they are found. -/
theorem readArguments_deepest {room : Nat} (h : room ≤ deepest) {arguments : List Argument}
    (hfound : readArguments room ts = .found arguments rest) :
    readArguments deepest ts = .found arguments rest :=
  readItems_covers (argument_covers h) hfound

/-! ### Solids in order -/

theorem solidsOf_append (factor : Float) (nodes more : List Node) :
    solidsOf factor (nodes ++ more) = solidsOf factor nodes ++ solidsOf factor more := by
  simp [solidsOf_eq_flatMap]

theorem solids_of_kindOfCall? {name : String} {kind : Kind} (hname : kindOfCall? name = some kind)
    (arguments : List Argument) (children : List Node) :
    (Node.call name arguments children).solids factor = (solid? factor kind arguments).toList := by
  unfold Node.solids
  rw [hname]

/-- A call that makes no solid itself has solids of its children only, each once and in order. -/
theorem solids_sublist_of_kindOfCall? {name : String} (hname : kindOfCall? name = none)
    (arguments : List Argument) (children : List Node) :
    ((Node.call name arguments children).solids factor).Sublist (solidsOf factor children) := by
  unfold Node.solids
  rw [hname]
  by_cases hdifference : name = "difference"
  · cases children with
    | nil => simp [hdifference]
    | cons first others =>
      have hfirst : ((first.solids factor).take 1).Sublist (first.solids factor) :=
        List.take_sublist 1 _
      simpa [hdifference, solidsOf] using hfirst.trans (List.sublist_append_left _ _)
  · simp [hdifference]

/-- The solids of what is read, with all that occur in what is left, are among those that occur in
what is given. -/
def InOrder (factor : Float) (ts : List Token) (nodes : List Node) (rest : List Token) : Prop :=
  (solidsOf factor nodes ++ occurrences factor rest).Sublist (occurrences factor ts)

/-- A reader that keeps solids in order. -/
def Reader.InOrder (r : Reader (List Node)) (factor : Float) : Prop :=
  ∀ {ts nodes rest}, r.run ts = .found nodes rest → Script.InOrder factor ts nodes rest

theorem InOrder.cons {nodes : List Node} (h : InOrder factor ts nodes rest) (t : Token) :
    InOrder factor (t :: ts) nodes rest :=
  List.Sublist.trans h (occurrences_sublist_cons t ts)

theorem inOrder_nil (h : rest <:+ ts) : InOrder factor ts [] rest := occurrences_sublist h

/-- What is read in two parts is in order if both parts are. -/
theorem InOrder.append {nodes more : List Node} {ts' : List Token}
    (h : InOrder factor ts nodes ts') (h' : InOrder factor ts' more rest) :
    InOrder factor ts (nodes ++ more) rest := by
  unfold InOrder at h h' ⊢
  rw [solidsOf_append, List.append_assoc]
  exact (h'.append_left _).trans h

/-- What is skipped leaves no solids behind, and what is read again after it starts further on. -/
theorem readOrSkip_inOrder {one : Reader (List Node)} (hone : one.InOrder factor)
    (ts : List Token) : InOrder factor ts (readOrSkip one ts).1 (readOrSkip one ts).2 := by
  unfold readOrSkip
  split
  · next hrun => exact hone hrun
  · exact inOrder_nil (skipStatement_suffix 0 ts)

theorem readBlockFrom_inOrder {one : Reader (List Node)} (hone : one.InOrder factor)
    {nodes found : List Node} (h : readBlockFrom one nodes ts = .found found rest) :
    ∃ new, found = nodes.reverse ++ new ∧ InOrder factor ts new rest := by
  fun_induction readBlockFrom one nodes ts with
  | case1 => contradiction
  | case2 nodes ts =>
    cases h
    exact ⟨[], (List.append_nil _).symm, inOrder_nil (List.suffix_cons _ _)⟩
  | case3 nodes t ts ht next ih =>
    obtain ⟨new, rfl, hnew⟩ := ih h
    refine ⟨next.1 ++ new, ?_, (readOrSkip_inOrder hone (t :: ts)).append hnew⟩
    rw [List.reverse_append, List.reverse_reverse, List.append_assoc]

theorem runBlock_inOrder {inner : Option (Reader (List Node))}
    (hinner : ∀ r ∈ inner, r.InOrder factor) {nodes : List Node}
    (h : runBlock inner ts = .found nodes rest) : InOrder factor ts nodes rest := by
  cases inner with
  | none => contradiction
  | some one =>
    obtain ⟨new, rfl, hnew⟩ := readBlockFrom_inOrder (hinner one rfl) h
    exact hnew

theorem runChildren_inOrder {inner : Option (Reader (List Node))}
    (hinner : ∀ r ∈ inner, r.InOrder factor) {nodes : List Node}
    (h : runChildren inner ts = .found nodes rest) : InOrder factor ts nodes rest := by
  unfold runChildren at h
  split at h
  · cases h
    exact inOrder_nil List.suffix_rfl
  · cases h
    exact inOrder_nil (List.suffix_cons _ _)
  · exact (runBlock_inOrder hinner h).cons _
  · split at h
    · contradiction
    · next one => exact hinner one rfl h

/-- A call stands before its children.  If it makes a solid, theirs are left out. -/
theorem call_inOrder {name : String} {arguments : List Argument} {children : List Node}
    {ts' : List Token} (hargs : readArguments deepest ts = .found arguments ts')
    (hchildren : InOrder factor ts' children rest) :
    InOrder factor (.word name :: .openParen :: ts) [.call name arguments children] rest := by
  have hafter : (occurrences factor ts').Sublist (occurrences factor (.openParen :: ts)) :=
    occurrences_sublist (((List.suffix_cons _ _).trans (readArguments_suffix hargs)).trans
      (List.suffix_cons _ _))
  have hbelow := List.Sublist.trans hchildren hafter
  rw [InOrder, solidsOf, solidsOf, List.append_nil, occurrences]
  cases hname : kindOfCall? name with
  | some kind =>
    have hsolid : callSolid? factor (.word name :: .openParen :: ts) =
        solid? factor kind arguments := by
      simp [callSolid?, hname, hargs]
    -- The solid stands where the call does; those of the children are dropped.
    rw [solids_of_kindOfCall? hname, hsolid]
    exact ((List.sublist_append_right _ _).trans hbelow).append_left _
  | none =>
    have hsolids : ((Node.call name arguments children).solids factor).Sublist
        (solidsOf factor children) := solids_sublist_of_kindOfCall? hname arguments children
    exact ((hsolids.append_right _).trans hbelow).trans (List.sublist_append_right _ _)

theorem runStatement_inOrder {room : Nat} (hroom : room ≤ deepest)
    {inner : Option (Reader (List Node))} (hinner : ∀ r ∈ inner, r.InOrder factor)
    {nodes : List Node} (h : runStatement room inner ts = .found nodes rest) :
    InOrder factor ts nodes rest := by
  unfold runStatement at h
  split at h
  · cases h
    exact inOrder_nil (List.suffix_cons _ _)
  · exact (runBlock_inOrder hinner h).cons _
  · split at h
    · contradiction
    · next hargs =>
      split at h
      · contradiction
      · next hchildren =>
        cases h
        exact call_inOrder (readArguments_deepest hroom hargs)
          (runChildren_inOrder hinner hchildren)
  · contradiction

theorem statementReader_inOrder {room : Nat} (hroom : room ≤ deepest) :
    (statementReader room).InOrder factor := by
  induction room with
  | zero =>
    intro ts nodes rest h
    rw [run_statementReader] at h
    exact runStatement_inOrder hroom (fun r hr => absurd hr (Option.not_mem_none r)) h
  | succ room ih =>
    intro ts nodes rest h
    rw [run_statementReader] at h
    refine runStatement_inOrder hroom (fun r hr => ?_) h
    obtain rfl := Option.some.inj hr
    exact ih (Nat.le_of_succ_le hroom)

/-! ### Scripts -/

theorem readAll_inOrder (factor : Float) (ts : List Token) : InOrder factor ts (readAll ts) [] := by
  have hone : outermost.InOrder factor := statementReader_inOrder (Nat.le_refl deepest)
  induction ts using readAll_induct with
  | nil =>
    rw [readAll_nil]
    exact inOrder_nil List.suffix_rfl
  | closeBrace ts ih =>
    rw [readAll_closeBrace]
    exact ih.cons _
  | statement t ts ht ih =>
    rw [readAll_of_ne ht]
    exact (readOrSkip_inOrder hone (t :: ts)).append ih

/-- **The solids of a script are those of some of its calls, each once and in order**, whether the
script is well formed or not. -/
theorem read_sublist_occurrences (unit : LengthUnit) (text : String) :
    (read unit text).Sublist (occurrences unit.factor (tokenize text.toList)) := by
  have hread := readAll_inOrder unit.factor (tokenize text.toList)
  rw [InOrder, occurrences, List.append_nil, solidsOf_eq_flatMap] at hread
  exact hread

end SolidScene.Script
