import SolidScene.Proofs.Script.NestingLimit
import SolidScene.Proofs.Script.Rendering

/-!
# The order of arguments

A size is looked up among the arguments of a call by one of five names, or by position among the
arguments without a name.  So the solid of a call stays the same

* in another order of the arguments in which those of each name, and those without one, follow each
  other as before (`Reordered`), and
* with arguments in between that no size is looked up by (`Interspersed`).

Neither changes how deep vectors nest in the arguments, which alone settles whether the call is read
at all (`read_call`).  `read_call_of_reordered` puts this together for calls in any layout.
-/

namespace SolidScene.Script

/-! ### Depth of what is read -/

/-- A reader all of whose finds have a property. -/
def Reader.Finds {α : Type} (r : Reader α) (p : α → Prop) : Prop :=
  ∀ {ts : List Token} {v : α} {rest : List Token}, r.run ts = .found v rest → p v

section Finds

variable {α : Type} {item : Reader α} {p : α → Prop} {close : Token} {ts rest : List Token}

theorem readItemsFrom_finds (hitem : item.Finds p) {found values : List α}
    (hfound : ∀ v ∈ found, p v) (h : readItemsFrom item close found ts = .found values rest) :
    ∀ v ∈ values, p v := by
  fun_induction readItemsFrom item close found ts with
  | case1 => contradiction
  | case2 found ts v tail hv ih => exact ih (List.forall_mem_cons.2 ⟨hitem hv, hfound⟩) h
  | case3 found ts v tail hv =>
    cases h
    intro x hx
    exact List.forall_mem_cons.2 ⟨hitem hv, hfound⟩ x (List.mem_reverse.1 hx)
  | case4 => contradiction
  | case5 => contradiction

theorem readItems_finds (hitem : item.Finds p) {values : List α}
    (h : readItems item close ts = .found values rest) : ∀ v ∈ values, p v := by
  unfold readItems at h
  split at h
  · split at h
    · cases h
      exact fun _ hv => absurd hv List.not_mem_nil
    · exact readItemsFrom_finds hitem (fun _ hv => absurd hv List.not_mem_nil) h
  · exact readItemsFrom_finds hitem (fun _ hv => absurd hv List.not_mem_nil) h

end Finds

theorem depthOfItems_le {items : List Value} {n : Nat} (h : ∀ v ∈ items, v.depth ≤ n) :
    depthOfItems items ≤ n := by
  induction items with
  | nil => exact Nat.zero_le n
  | cons item rest ih =>
    obtain ⟨hitem, hrest⟩ := List.forall_mem_cons.1 h
    rw [depthOfItems, Nat.max_le]
    exact ⟨hitem, ih hrest⟩

theorem runValue_depth_le {inner : Option (Reader Value)} {room : Nat}
    (hinner : ∀ r ∈ inner, ∃ less, room = less + 1 ∧ r.Finds fun v => v.depth ≤ less)
    {ts rest : List Token} {v : Value} (h : runValue inner ts = .found v rest) :
    v.depth ≤ room := by
  unfold runValue at h
  split at h
  · cases h; exact Nat.zero_le room
  · cases h; exact Nat.zero_le room
  · contradiction
  · cases h; exact Nat.zero_le room
  · split at h
    · contradiction
    · next item =>
      obtain ⟨less, rfl, hitem⟩ := hinner item rfl
      split at h
      · next hitems =>
        cases h
        exact Nat.succ_le_succ (depthOfItems_le (readItems_finds hitem hitems))
      · contradiction
  · contradiction

/-- Vectors nest no deeper in a value that is read than there is room for. -/
theorem value_finds (room : Nat) : (value room).Finds fun v => v.depth ≤ room := by
  induction room with
  | zero =>
    intro ts v rest h
    rw [run_value] at h
    exact runValue_depth_le (fun r hr => absurd hr (Option.not_mem_none r)) h
  | succ room ih =>
    intro ts v rest h
    rw [run_value] at h
    refine runValue_depth_le (fun r hr => ⟨room, rfl, ?_⟩) h
    obtain rfl := Option.some.inj hr
    exact ih

theorem argument_finds (room : Nat) : (argument room).Finds fun a => a.value.depth ≤ room := by
  intro ts a rest h
  change runArgument (value room) ts = _ at h
  unfold runArgument at h
  split at h
  · split at h
    · next hv =>
      cases h
      exact value_finds room hv
    · contradiction
  · split at h
    · next hv =>
      cases h
      exact value_finds room hv
    · contradiction

theorem depthOfArguments_le_iff {arguments : List Argument} {n : Nat} :
    depthOfArguments arguments ≤ n ↔ ∀ a ∈ arguments, a.value.depth ≤ n := by
  constructor
  · intro h a ha
    exact Nat.le_trans (depth_le_of_mem_items (List.mem_map_of_mem ha)) h
  · intro h
    exact depthOfItems_le (List.forall_mem_map.2 h)

/-- Arguments are read from their tokens if and only if there is room for their vectors. -/
theorem readArguments_tokens_eq (room : Nat) (arguments : List Argument) (rest : List Token) :
    (depthOfArguments arguments ≤ room ∧
        readArguments room (separated (arguments.map Argument.tokens) ++ .closeParen :: rest) =
          .found arguments rest) ∨
      (¬ depthOfArguments arguments ≤ room ∧ ∃ left,
        readArguments room (separated (arguments.map Argument.tokens) ++ .closeParen :: rest) =
          .failed left) := by
  rcases readArguments_tokens_or room arguments rest with ⟨left, hfailed⟩ | hfound
  · refine Or.inr ⟨fun hdepth => ?_, left, hfailed⟩
    cases hfailed.symm.trans (readArguments_tokens hdepth rest)
  · exact Or.inl ⟨depthOfArguments_le_iff.2 (readItems_finds (argument_finds room) hfound), hfound⟩

/-! ### A call by itself -/

/-- A script that is a single call is read as that call, if there is room for its vectors. -/
theorem readAll_call (name : String) (arguments : List Argument) :
    readAll (Statement.call name arguments).tokens =
      if depthOfArguments arguments ≤ deepest then [.call name arguments []] else [] := by
  have htokens : (Statement.call name arguments).tokens = .word name :: .openParen ::
      (separated (arguments.map Argument.tokens) ++ .closeParen :: [.semicolon]) := by
    simp [Statement.tokens, callTokens]
  rcases readArguments_tokens_eq deepest arguments [.semicolon] with
    ⟨hdepth, hread⟩ | ⟨hdepth, left, hread⟩
  · have hdepth' : depthOf [.call name arguments] ≤ deepest :=
      Nat.max_le.2 ⟨hdepth, Nat.zero_le _⟩
    rw [if_pos hdepth]
    simpa [tokensOf, nodesOf, Statement.nodes] using readAll_tokensOf hdepth'
  · have hrun : outermost.run (Statement.call name arguments).tokens = .failed left := by
      rw [outermost, run_statementReader, htokens]
      simp only [runStatement, hread]
    have hskip := skipStatement_tokens (.call name arguments) []
    rw [List.append_nil] at hskip
    have hone : readOrSkip outermost (Statement.call name arguments).tokens = ([], []) := by
      rw [readOrSkip, hrun]
      exact congrArg (Prod.mk []) hskip
    rw [if_neg hdepth]
    rw [htokens] at hone ⊢
    rw [readAll_of_ne Token.noConfusion, hone, readAll_nil]
    rfl

/-- **A call by itself** says the solid that its arguments size, if there is room for their
vectors. -/
theorem read_call (unit : LengthUnit) {name : String} {arguments : List Argument} {text : String}
    (h : Layout (Statement.call name arguments).tokens text.toList) :
    read unit text =
      if depthOfArguments arguments ≤ deepest then
        ((kindOfCall? name).bind fun kind => solid? unit.factor kind arguments).toList
      else [] := by
  rw [read, parse, tokenize_of_layout h, readAll_call]
  by_cases hdepth : depthOfArguments arguments ≤ deepest
  · rw [if_pos hdepth, if_pos hdepth, List.flatMap_singleton, solids_call, contribution]
    cases kindOfCall? name with
    | some kind => rfl
    | none => simp
  · rw [if_neg hdepth, if_neg hdepth, List.flatMap_nil]

/-- The written form of a call is a layout of it. -/
theorem layout_of_renderCall_eq {name : String} {arguments : List Argument} {text : String}
    (hwritable : (Statement.call name arguments).tokens.all Token.isWritable)
    (htext : renderCall name arguments ++ [';'] = text.toList) :
    Layout (Statement.call name arguments).tokens text.toList := by
  have hlayout := Statement.layout_render _ (List.all_eq_true.1 hwritable) 0 Layout.nil
  rwa [List.append_nil, List.append_nil, Statement.render, htext] at hlayout

/-! ### Looking up -/

/-- The names that sizes are looked up by, and the lack of one. -/
def sizeNames : List (Option String) :=
  [none, some "size", some "r", some "r1", some "d", some "d1"]

section LookUp

variable {as bs : List Argument}

theorem namedValue?_congr {name : String}
    (h : as.filter (·.name = some name) = bs.filter (·.name = some name)) :
    namedValue? as name = namedValue? bs name := by
  have hfind (arguments : List Argument) : arguments.find? (·.name == some name) =
      (arguments.filter (·.name = some name)).head? := by
    rw [List.head?_filter]
    exact congrArg (fun p => arguments.find? p) (funext fun a => beq_eq_decide _ _)
  rw [namedValue?, namedValue?, hfind, hfind, h]

theorem positional?_congr (h : as.filter (·.name = none) = bs.filter (·.name = none))
    (index : Nat) : positional? as index = positional? bs index := by
  have hfilter (arguments : List Argument) :
      arguments.filter (·.name.isNone) = arguments.filter (·.name = none) :=
    List.filter_congr fun a _ => by cases a.name <;> rfl
  rw [positional?, positional?, hfilter, hfilter, h]

/-- A size depends only on the arguments of each name that sizes are looked up by, and on those
without a name. -/
theorem length?_congr
    (h : ∀ name ∈ sizeNames, as.filter (·.name = name) = bs.filter (·.name = name))
    (kind : Kind) : length? kind as = length? kind bs := by
  have hnamed (name : String) (hname : some name ∈ sizeNames) :
      namedValue? as name = namedValue? bs name := namedValue?_congr (h _ hname)
  have hnumber (name : String) (hname : some name ∈ sizeNames) :
      namedNumber? as name = namedNumber? bs name := by
    rw [namedNumber?, namedNumber?, hnamed name hname]
  have hposition (index : Nat) : positional? as index = positional? bs index :=
    positional?_congr (h none (by decide)) index
  cases kind with
  | box => simp only [length?, boxEdge?, hnamed "size" (by decide), hposition]
  | sphere =>
    simp only [length?, sphereRadius?, hnumber "r" (by decide), hnumber "d" (by decide),
      positionalNumber?, hposition]
  | cylinder =>
    simp only [length?, cylinderRadius?, hnumber "r" (by decide), hnumber "r1" (by decide),
      hnumber "d" (by decide), hnumber "d1" (by decide), positionalNumber?, hposition]

end LookUp

/-! ### Other orders, and arguments in between -/

/-- The same arguments in an order in which those of each name, and those without one, follow each
other as before. -/
structure Reordered (as bs : List Argument) : Prop where
  perm : as.Perm bs
  order (name : Option String) : as.filter (·.name = name) = bs.filter (·.name = name)

/-- An argument that no size is looked up by: it has another name, and its value is a number or a
word. -/
structure Argument.IsIdle (a : Argument) : Prop where
  name : a.name ∉ sizeNames
  plain : ∀ items, a.value ≠ .vector items

/-- The second row is the first one with idle arguments anywhere in between. -/
inductive Interspersed : List Argument → List Argument → Prop
  | nil : Interspersed [] []
  | keep (a : Argument) {as bs : List Argument} (h : Interspersed as bs) :
      Interspersed (a :: as) (a :: bs)
  | insert {a : Argument} {as bs : List Argument} (ha : a.IsIdle) (h : Interspersed as bs) :
      Interspersed as (a :: bs)

section Arrangement

variable {as bs : List Argument}

theorem Argument.IsIdle.depth_eq {a : Argument} (h : a.IsIdle) : a.value.depth = 0 := by
  have hplain := h.plain
  revert hplain
  cases a.value with
  | number negative magnitude => exact fun _ => rfl
  | word name => exact fun _ => rfl
  | vector items => exact fun hplain => absurd rfl (hplain items)

theorem Reordered.depth_eq (h : Reordered as bs) : depthOfArguments as = depthOfArguments bs := by
  refine Nat.le_antisymm ?_ ?_
  · exact depthOfArguments_le_iff.2 fun a ha =>
      depthOfArguments_le_iff.1 (Nat.le_refl _) a (h.perm.mem_iff.1 ha)
  · exact depthOfArguments_le_iff.2 fun a ha =>
      depthOfArguments_le_iff.1 (Nat.le_refl _) a (h.perm.mem_iff.2 ha)

theorem Interspersed.depth_eq (h : Interspersed as bs) :
    depthOfArguments as = depthOfArguments bs := by
  induction h with
  | nil => rfl
  | keep a h ih =>
    simp only [depthOfArguments, List.map_cons, depthOfItems] at ih ⊢
    rw [ih]
  | insert ha h ih =>
    simp only [depthOfArguments, List.map_cons, depthOfItems, ha.depth_eq, Nat.zero_max] at ih ⊢
    exact ih

theorem Interspersed.filter_eq (h : Interspersed as bs) {name : Option String}
    (hname : name ∈ sizeNames) : as.filter (·.name = name) = bs.filter (·.name = name) := by
  induction h with
  | nil => rfl
  | keep a h ih => rw [List.filter_cons, List.filter_cons, ih]
  | @insert a as bs ha h ih =>
    have hother : a.name ≠ name := fun heq => ha.name (heq ▸ hname)
    rw [List.filter_cons_of_neg (by simpa using hother), ih]

end Arrangement

/-- An argument may stand behind arguments that have other names. -/
theorem reordered_append_singleton {a : Argument} {as : List Argument}
    (h : ∀ b ∈ as, b.name ≠ a.name) : Reordered (a :: as) (as ++ [a]) where
  perm := (List.perm_append_singleton a as).symm
  order name := by
    rw [List.filter_append]
    by_cases ha : a.name = name
    · have hnone : as.filter (·.name = name) = [] :=
        List.filter_eq_nil_iff.2 fun b hb => by simpa [← ha] using h b hb
      simp [ha, hnone]
    · simp [ha]

/-- **The order of arguments and idle arguments make no difference.**  A call in any layout says the
same as a call of the same name, in any layout, whose arguments are reordered and interspersed with
idle ones. -/
theorem read_call_of_reordered (unit : LengthUnit) {name : String} {as bs cs : List Argument}
    (horder : Reordered as bs) (hidle : Interspersed bs cs) {text text' : String}
    (h : Layout (Statement.call name as).tokens text.toList)
    (h' : Layout (Statement.call name cs).tokens text'.toList) :
    read unit text = read unit text' := by
  have hfilter : ∀ name ∈ sizeNames, as.filter (·.name = name) = cs.filter (·.name = name) :=
    fun name hname => (horder.order name).trans (hidle.filter_eq hname)
  have hdepth : depthOfArguments as = depthOfArguments cs :=
    horder.depth_eq.trans hidle.depth_eq
  have hsolid (kind : Kind) : solid? unit.factor kind as = solid? unit.factor kind cs := by
    rw [solid?, solid?, length?_congr hfilter]
  rw [read_call unit h, read_call unit h', hdepth]
  simp only [hsolid]

/-- The argument that gives a diameter of four. -/
def diameter : Argument := ⟨some "d", .number false ⟨4, 0⟩⟩

/-- Two arguments without a name, and two for the radius, the first of which is a word. -/
def twoRadii : List Argument :=
  [⟨none, .number false ⟨1, 0⟩⟩, ⟨some "r", .word "wide"⟩, ⟨none, .number false ⟨2, 0⟩⟩,
    ⟨some "r", .number false ⟨9, 0⟩⟩]

/-- The same arguments with two idle ones in between, and the diameter behind them. -/
def twoRadiiApart : List Argument :=
  [⟨none, .number false ⟨1, 0⟩⟩, ⟨some "$fn", .number false ⟨32, 0⟩⟩, ⟨some "r", .word "wide"⟩,
    ⟨none, .number false ⟨2, 0⟩⟩, ⟨some "r", .number false ⟨9, 0⟩⟩, ⟨some "center", .word "true"⟩,
    diameter]

theorem interspersed_twoRadiiApart : Interspersed (twoRadii ++ [diameter]) twoRadiiApart :=
  have hfn : Argument.IsIdle ⟨some "$fn", .number false ⟨32, 0⟩⟩ := ⟨by decide, nofun⟩
  have hcenter : Argument.IsIdle ⟨some "center", .word "true"⟩ := ⟨by decide, nofun⟩
  .keep _ (.insert hfn (.keep _ (.keep _ (.keep _ (.insert hcenter (.keep _ .nil))))))

theorem read_call_of_reordered_twoRadii :
    Reordered (diameter :: twoRadii) (twoRadii ++ [diameter]) ∧
      Interspersed (twoRadii ++ [diameter]) twoRadiiApart ∧
      Layout (Statement.call "cylinder" (diameter :: twoRadii)).tokens
        "cylinder(d=4, 1, r=wide, 2, r=9);".toList ∧
      Layout (Statement.call "cylinder" twoRadiiApart).tokens
        "cylinder(1, $fn=32, r=wide, 2, r=9, center=true, d=4);".toList ∧
      read .millimeters "cylinder(d=4, 1, r=wide, 2, r=9);" =
        read .millimeters "cylinder(1, $fn=32, r=wide, 2, r=9, center=true, d=4);" :=
  have horder : Reordered (diameter :: twoRadii) (twoRadii ++ [diameter]) :=
    reordered_append_singleton (by simp [diameter, twoRadii])
  have hidle := interspersed_twoRadiiApart
  have h : Layout (Statement.call "cylinder" (diameter :: twoRadii)).tokens
      "cylinder(d=4, 1, r=wide, 2, r=9);".toList := layout_of_renderCall_eq rfl rfl
  have h' : Layout (Statement.call "cylinder" twoRadiiApart).tokens
      "cylinder(1, $fn=32, r=wide, 2, r=9, center=true, d=4);".toList :=
    layout_of_renderCall_eq rfl rfl
  ⟨horder, hidle, h, h', read_call_of_reordered .millimeters horder hidle h h'⟩

end SolidScene.Script
