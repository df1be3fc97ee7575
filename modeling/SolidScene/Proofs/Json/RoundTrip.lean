import SolidScene.Proofs.Json.Blanks
import SolidScene.Proofs.Json.Numeral
import SolidScene.Proofs.Json.Quoted

/-!
# Documents read back

A value whose texts are texts and whose numbers are plain (`IsPlain`) is read from its own text
(`read?_text`).  The statement that carries the induction is `ReadsBack`: the value is read off the
start of its text at any depth, with any fuel from the length of this text on, whatever follows that
cannot go on with a number.  For arrays and objects it is put together from the same statement about
the items, by induction on the row of them.
-/

namespace SolidScene.Json

open Decimal (EndsNumeral)

/-- A value that can be written without loss. -/
inductive IsPlain : Json → Prop
  | null : IsPlain .null
  | bool (value : Bool) : IsPlain (.bool value)
  | number (negative : Bool) {magnitude : Numeral} (h : magnitude.IsPlain) :
    IsPlain (.number negative magnitude)
  | string (s : String) : IsPlain (.string (some s))
  | array {items : List Json} (h : ∀ item ∈ items, IsPlain item) : IsPlain (.array items)
  | object {members : List (Option String × Json)} (hnames : ∀ m ∈ members, m.1.isSome)
    (hvalues : ∀ m ∈ members, IsPlain m.2) : IsPlain (.object members)

/-! ### Ends of numbers -/

theorem endsNumeral_cons {c : Char}
    (hc : c.isDigit = false ∧ c ≠ '.' ∧ c ≠ 'e' ∧ c ≠ 'E') (rest : List Char) :
    EndsNumeral (c :: rest) := by
  intro d hd
  obtain rfl : c = d := Option.some.inj hd
  exact hc

theorem endsNumeral_newLine (level : Nat) (rest : List Char) :
    EndsNumeral (newLine level ++ rest) :=
  endsNumeral_cons (by decide) _

/-! ### Values without parts -/

/-- A value is read off the start of its text. -/
def ReadsBack (v : Json) : Prop :=
  ∀ (level fuel : Nat) (rest : List Char), (v.render level).length < fuel → EndsNumeral rest →
    readValue? fuel (v.render level ++ rest) = some (v, rest)

/-- It is enough to look at fuels above zero. -/
theorem readsBack_of_succ {v : Json}
    (h : ∀ (level fuel : Nat) (rest : List Char), (v.render level).length ≤ fuel →
      EndsNumeral rest → readValue? (fuel + 1) (v.render level ++ rest) = some (v, rest)) :
    ReadsBack v := by
  intro level fuel rest hfuel hrest
  obtain ⟨fuel, rfl⟩ := Nat.exists_eq_succ_of_ne_zero (Nat.ne_zero_of_lt hfuel)
  exact h level fuel rest (Nat.le_of_lt_succ hfuel) hrest

theorem readsBack_null : ReadsBack .null := readsBack_of_succ fun _ _ _ _ _ => rfl

theorem readsBack_bool (b : Bool) : ReadsBack (.bool b) :=
  readsBack_of_succ fun _ _ _ _ _ => by cases b <;> rfl

theorem readsBack_string (s : String) : ReadsBack (.string (some s)) := by
  refine readsBack_of_succ fun level fuel rest _ _ => ?_
  have htext : (render level (.string (some s))) ++ rest =
      '"' :: (s.toList.flatMap escapeChar ++ '"' :: rest) := by
    simp [render, quoteContent, quote]
  rw [htext, readValue?, skipSpace_cons (by decide)]
  change (readText? _).map _ = _
  rw [readText?_quote, Option.map_some]

/-- A digit starts no value but a number. -/
theorem readValue?_digit {c : Char} (hc : c.isDigit) (fuel : Nat) (cs : List Char) :
    readValue? (fuel + 1) (c :: cs) =
      (readNumeral? (c :: cs)).map fun (n, cs) => (number false n, cs) := by
  have hspace : isSpace c = false := by
    rw [isSpace, ← Bool.not_eq_true]
    intro h
    simp only [Bool.or_eq_true, beq_iff_eq] at h
    rcases h with ((rfl | rfl) | rfl) | rfl <;> revert hc <;> decide
  have hother {d : Char} (hd : d.isDigit = false) {ds : List Char} (h : c :: cs = d :: ds) :
      False := by
    obtain ⟨rfl, -⟩ := List.cons.inj h
    rw [hd] at hc
    cases hc
  rw [readValue?, skipSpace_cons hspace]
  split
  · next h => exact (hother (by decide) h).elim
  · next h => exact (hother (by decide) h).elim
  · next h => exact (hother (by decide) h).elim
  · next h => exact (hother (by decide) h).elim
  · next h => exact (hother (by decide) h).elim
  · next h => exact (hother (by decide) h).elim
  · next h => exact (hother (by decide) h).elim
  · rfl

theorem readsBack_number (negative : Bool) {n : Numeral} (hn : n.IsPlain) :
    ReadsBack (.number negative n) := by
  refine readsBack_of_succ fun level fuel rest _ hrest => ?_
  obtain ⟨c, cs, hcs, hc⟩ := exists_text_eq_cons hn
  have hread := readNumeral?_text hn hrest
  rw [render]
  cases negative with
  | true =>
    rw [if_pos rfl, List.cons_append, List.nil_append, List.cons_append, readValue?,
      skipSpace_cons (by decide)]
    change (readNumeral? _).map _ = _
    rw [hread, Option.map_some]
  | false =>
    rw [if_neg Bool.false_ne_true, List.nil_append]
    rw [hcs] at hread ⊢
    rw [List.cons_append, readValue?_digit hc, ← List.cons_append, hread, Option.map_some]

/-! ### Arrays -/

theorem endsNumeral_renderItems (level : Nat) (items : List Json) (k : Nat) (rest : List Char) :
    EndsNumeral (renderItems level items ++ (newLine k ++ rest)) := by
  cases items with
  | nil => exact endsNumeral_newLine k rest
  | cons item items => exact endsNumeral_cons (by decide) _

/-- A row of items is read up to the bracket after it. -/
theorem readItems?_render {item : Json} {items : List Json} (h : ∀ i ∈ item :: items, ReadsBack i)
    (level k fuel : Nat) (found : List Json) (rest : List Char)
    (hfuel : (item.render level ++ renderItems level items).length + 1 < fuel) :
    readItems? fuel found
        (item.render level ++ (renderItems level items ++ (newLine k ++ ']' :: rest))) =
      some (array (found.reverse ++ item :: items), rest) := by
  induction items generalizing item fuel found with
  | nil =>
    obtain ⟨fuel, rfl⟩ := Nat.exists_eq_succ_of_ne_zero (Nat.ne_zero_of_lt hfuel)
    rw [renderItems, List.append_nil] at hfuel
    have hitem := h item List.mem_cons_self level fuel (newLine k ++ ']' :: rest)
      (Nat.lt_of_succ_lt_succ hfuel) (endsNumeral_newLine k _)
    rw [renderItems, List.nil_append, readItems?, hitem]
    simp only [skipSpace_newLine, skipSpace_cons (show isSpace ']' = false by decide),
      List.reverse_cons]
  | cons next items ih =>
    obtain ⟨fuel, rfl⟩ := Nat.exists_eq_succ_of_ne_zero (Nat.ne_zero_of_lt hfuel)
    have hlength : (item.render level).length < fuel ∧
        (next.render level ++ renderItems level items).length + 1 < fuel := by
      simp only [renderItems, newLine, List.length_append, List.length_cons] at hfuel ⊢
      omega
    have hitem := h item List.mem_cons_self level fuel
      (renderItems level (next :: items) ++ (newLine k ++ ']' :: rest)) hlength.1
      (endsNumeral_renderItems level _ k _)
    have hrest := ih (fun i hi => h i (List.mem_cons_of_mem _ hi)) fuel (item :: found) hlength.2
    rw [readItems?, hitem]
    simp only [renderItems, List.cons_append, List.append_assoc,
      skipSpace_cons (show isSpace ',' = false by decide)]
    rw [readItems?_congr (skipSpace_newLine _ _), hrest, List.reverse_cons, List.append_assoc,
      List.singleton_append]

/-- No value starts with a closing bracket. -/
theorem head_ne_of_readsBack {v : Json} (h : ReadsBack v) (level : Nat) (rest tail : List Char)
    (hrest : EndsNumeral rest) : skipSpace (v.render level ++ rest) ≠ ']' :: tail := by
  intro heq
  have hread := h level _ rest (Nat.lt_succ_self _) hrest
  rw [readValue?, heq] at hread
  cases hread

theorem readsBack_array {items : List Json} (h : ∀ item ∈ items, ReadsBack item) :
    ReadsBack (.array items) := by
  refine readsBack_of_succ fun level fuel rest hfuel _ => ?_
  cases items with
  | nil => rfl
  | cons item items =>
    rw [render] at hfuel ⊢
    have hlength :
        (item.render (level + 1) ++ renderItems (level + 1) items).length + 1 < fuel := by
      simp only [newLine, List.length_append, List.length_cons] at hfuel ⊢
      omega
    have hitems := readItems?_render h (level + 1) level fuel [] rest hlength
    -- With this at hand the simplifier rules out the case of an empty array.
    have hstart (tail : List Char) := head_ne_of_readsBack (h item List.mem_cons_self) (level + 1)
      _ tail (endsNumeral_renderItems (level + 1) items level (']' :: rest))
    simp only [List.cons_append, List.append_assoc, List.nil_append, readValue?,
      skipSpace_cons (show isSpace '[' = false by decide), skipSpace_newLine]
    rw [readItems?_congr (skipSpace_skipSpace _), hitems, List.reverse_nil, List.nil_append]

/-! ### Objects -/

theorem readName?_render {name : Option String} (hname : name.isSome) (level : Nat)
    (rest : List Char) :
    readName? (newLine level ++ (quoteContent name ++ ':' :: rest)) = some (name, rest) := by
  obtain ⟨s, rfl⟩ := Option.isSome_iff_exists.1 hname
  have htext : quoteContent (some s) ++ ':' :: rest =
      '"' :: (s.toList.flatMap escapeChar ++ '"' :: ':' :: rest) := by
    simp [quoteContent, quote]
  rw [readName?, skipSpace_newLine, htext, skipSpace_cons (by decide)]
  simp only [readText?_quote, skipSpace_cons (show isSpace ':' = false by decide)]

theorem endsNumeral_renderMembers (level : Nat) (members : List (Option String × Json)) (k : Nat)
    (rest : List Char) : EndsNumeral (renderMembers level members ++ (newLine k ++ rest)) := by
  cases members with
  | nil => exact endsNumeral_newLine k rest
  | cons m members => exact endsNumeral_cons (by decide) _

/-- A row of members is read up to the brace after it. -/
theorem readMembers?_render {name : Option String} {value : Json}
    {members : List (Option String × Json)} (hnames : ∀ m ∈ (name, value) :: members, m.1.isSome)
    (hvalues : ∀ m ∈ (name, value) :: members, ReadsBack m.2) (level k fuel : Nat)
    (found : List (Option String × Json)) (rest : List Char)
    (hfuel : (value.render level ++ renderMembers level members).length + 1 < fuel) :
    readMembers? fuel found (newLine level ++ (quoteContent name ++
        ':' :: ' ' :: (value.render level ++ (renderMembers level members ++
          (newLine k ++ '}' :: rest))))) =
      some (object (found.reverse ++ (name, value) :: members), rest) := by
  have hname := readName?_render (hnames _ List.mem_cons_self) level
  induction members generalizing name value fuel found with
  | nil =>
    obtain ⟨fuel, rfl⟩ := Nat.exists_eq_succ_of_ne_zero (Nat.ne_zero_of_lt hfuel)
    rw [renderMembers, List.append_nil] at hfuel
    have hvalue := hvalues _ List.mem_cons_self level fuel (newLine k ++ '}' :: rest)
      (Nat.lt_of_succ_lt_succ hfuel) (endsNumeral_newLine k _)
    rw [renderMembers, List.nil_append, readMembers?, hname]
    simp only [readValue?_congr (skipSpace_blank _), hvalue, skipSpace_newLine,
      skipSpace_cons (show isSpace '}' = false by decide), List.reverse_cons]
  | cons next members ih =>
    obtain ⟨nextName, nextValue⟩ := next
    obtain ⟨fuel, rfl⟩ := Nat.exists_eq_succ_of_ne_zero (Nat.ne_zero_of_lt hfuel)
    have hlength : (value.render level).length < fuel ∧
        (nextValue.render level ++ renderMembers level members).length + 1 < fuel := by
      simp only [renderMembers, newLine, List.length_append, List.length_cons] at hfuel ⊢
      omega
    have hvalue := hvalues _ List.mem_cons_self level fuel
      (renderMembers level ((nextName, nextValue) :: members) ++ (newLine k ++ '}' :: rest))
      hlength.1 (endsNumeral_renderMembers level _ k _)
    have hnames' := fun m hm => hnames m (List.mem_cons_of_mem _ hm)
    have hrest := ih hnames' (fun m hm => hvalues m (List.mem_cons_of_mem _ hm)) fuel
      ((name, value) :: found) hlength.2 (readName?_render (hnames' _ List.mem_cons_self) level)
    rw [readMembers?, hname]
    simp only [readValue?_congr (skipSpace_blank _), hvalue]
    simp only [renderMembers, List.cons_append, List.append_assoc,
      skipSpace_cons (show isSpace ',' = false by decide)]
    rw [hrest, List.reverse_cons, List.append_assoc, List.singleton_append]

theorem readsBack_object {members : List (Option String × Json)}
    (hnames : ∀ m ∈ members, m.1.isSome) (hvalues : ∀ m ∈ members, ReadsBack m.2) :
    ReadsBack (.object members) := by
  refine readsBack_of_succ fun level fuel rest hfuel _ => ?_
  cases members with
  | nil => rfl
  | cons m members =>
    obtain ⟨name, value⟩ := m
    rw [render] at hfuel ⊢
    have hlength : (value.render (level + 1) ++ renderMembers (level + 1) members).length + 1 <
        fuel := by
      simp only [newLine, List.length_append, List.length_cons] at hfuel ⊢
      omega
    have hmembers := readMembers?_render hnames hvalues (level + 1) level fuel [] rest hlength
    have hquote (tail : List Char) :
        skipSpace (quoteContent name ++ tail) = quoteContent name ++ tail :=
      skipSpace_cons (by decide) _
    simp only [List.cons_append, List.append_assoc, List.nil_append, readValue?,
      skipSpace_cons (show isSpace '{' = false by decide), skipSpace_newLine, hquote]
    -- A quote is no closing brace.
    change readMembers? fuel [] (quoteContent name ++ _) = _
    rw [← readMembers?_congr (skipSpace_newLine (level + 1) _), hmembers, List.reverse_nil,
      List.nil_append]

/-! ### Documents -/

theorem IsPlain.readsBack {v : Json} (h : v.IsPlain) : ReadsBack v := by
  induction h with
  | null => exact readsBack_null
  | bool b => exact readsBack_bool b
  | number negative hn => exact readsBack_number negative hn
  | string s => exact readsBack_string s
  | array _ ih => exact readsBack_array ih
  | object hnames _ ih => exact readsBack_object hnames ih

/-- **A plain value** is read from its text. -/
theorem read?_text {v : Json} (h : v.IsPlain) : read? v.text = some v := by
  have hread := h.readsBack 0 (2 * (v.render 0).length + 2) [] (by omega) fun c hc => by cases hc
  rw [List.append_nil] at hread
  rw [read?, text]
  simp only [String.toList_ofList, hread, skipSpace, List.dropWhile_nil, List.isEmpty_nil, if_true]

end SolidScene.Json
