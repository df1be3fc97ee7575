import Mathlib.Data.List.Basic
import Mathlib.Data.List.TakeWhile
import SolidScene.CommandLine.Arguments

/-!
# The file that arguments name for output

`outputNamed?` finds the output file in the arguments as they stand, without sorting them: it is
the value of the first option of the name that the command has for it.  Where sorting succeeds, it
comes to the same (`outputNamed?_eq`): every other argument on the way is skipped, since no file and
no value of an option starts with two dashes, and a second value for the same option is refused.
-/

namespace SolidScene.CommandLine

/-! ### Finding an option -/

/-- The value that arguments give an option: what follows its name, in the next argument or after an
equals sign.  No option comes after `--`. -/
def optionValue? (name : String) : List String → Option String
  | [] => none
  | argument :: rest =>
    let option := "--".toList ++ name.toList
    if argument.toList = "--".toList then none
    else if argument.toList = option then rest.head?
    else match argument.toList.dropPrefix? (option ++ ['=']) with
      | some value => some (String.ofList value)
      | none => optionValue? name rest

/-- The file that arguments name for output. -/
def outputNamed? : List String → Option String
  | "generate" :: rest | "parse" :: rest => optionValue? "out" rest
  | "export-stl" :: rest => some ((optionValue? "out" rest).getD "scene.stl")
  | "inspect" :: rest => optionValue? "report" rest
  | _ => none

example : outputNamed? ["parse", "--out", "a", "--unit=cm", "b"] = some "a" := by decide +kernel

/-- The file that a command writes. -/
def Command.output? : Command → Option String
  | .generate _ out _ => out
  | .parse _ out _ _ => out
  | .exportStl _ out _ _ => some out
  | .inspect _ report => report

variable {name argument value : String} {text : List Char} {rest arguments : List String}

/-! ### One argument -/

/-- The text of an option without an equals sign is its name. -/
theorem of_splitOption_eq_none (h : splitOption text = (name, none)) :
    text = name.toList ∧ '=' ∉ text := by
  rw [splitOption] at h
  split at h
  · cases h
  · next hdrop =>
    obtain ⟨rfl, -⟩ := Prod.mk.inj h
    refine ⟨String.toList_ofList.symm, fun hmem => ?_⟩
    simpa using List.dropWhile_eq_nil_iff.1 hdrop _ hmem

/-- The text of an option with an equals sign is its name and its value. -/
theorem of_splitOption_eq_some (h : splitOption text = (name, some value)) :
    text = name.toList ++ '=' :: value.toList ∧ '=' ∉ name.toList := by
  rw [splitOption] at h
  split at h
  · next sign value' hdrop =>
    simp only [Prod.mk.injEq, Option.some.injEq] at h
    obtain ⟨rfl, rfl⟩ := h
    have hsign : sign = '=' := by
      have hne : text.dropWhile (· != '=') ≠ [] := by simp [hdrop]
      have hhead := List.head_dropWhile_not (· != '=') hne
      simpa [hdrop] using hhead
    have htext := List.takeWhile_append_dropWhile (p := (· != '=')) (l := text)
    rw [hdrop, hsign] at htext
    rw [String.toList_ofList, String.toList_ofList]
    refine ⟨htext.symm, fun hmem => ?_⟩
    simpa using List.mem_takeWhile_imp hmem
  · cases h

theorem splitOption_of_sign (hname : '=' ∉ name.toList) (value : List Char) :
    splitOption (name.toList ++ '=' :: value) = (name, some (String.ofList value)) := by
  have hother : ∀ c ∈ name.toList, (c != '=') = true := fun c hc =>
    bne_iff_ne.2 fun heq => hname (heq ▸ hc)
  simp [splitOption, List.dropWhile_append_of_pos hother, List.takeWhile_append_of_pos hother]

/-- What is left of an argument after the dashes, the name of an option and an equals sign. -/
theorem dropPrefix?_option_eq_some_iff {value : List Char} :
    argument.toList.dropPrefix? ("--".toList ++ name.toList ++ ['=']) = some value ↔
      argument.toList = '-' :: '-' :: (name.toList ++ '=' :: value) := by
  simp [List.dropPrefix?_eq_some_iff]

/-- Nothing is an option after two dashes. -/
theorem optionValue?_cons_end (h : argument.toList = ['-', '-']) :
    optionValue? name (argument :: rest) = none :=
  if_pos h

/-- An argument that does not start with two dashes is skipped. -/
theorem optionValue?_cons_of_ne (h : ∀ text, argument.toList ≠ '-' :: '-' :: text) :
    optionValue? name (argument :: rest) = optionValue? name rest := by
  have hend : argument.toList ≠ "--".toList := h []
  have hoption : argument.toList ≠ "--".toList ++ name.toList := h name.toList
  rw [optionValue?]
  simp only [if_neg hend, if_neg hoption]
  split
  · next value hvalue => exact absurd (dropPrefix?_option_eq_some_iff.1 hvalue) (h _)
  · rfl

variable {other : String}

/-- An option without an equals sign. -/
theorem optionValue?_cons_of_none (hname : '=' ∉ name.toList)
    (hargument : argument.toList = '-' :: '-' :: text) (htext : text ≠ [])
    (h : splitOption text = (other, none)) :
    optionValue? name (argument :: rest) =
      if other = name then rest.head? else optionValue? name rest := by
  have hend : argument.toList ≠ "--".toList := by
    rw [hargument]
    exact fun heq => htext (List.cons.inj (List.cons.inj heq).2).2
  have hoption : argument.toList = "--".toList ++ name.toList ↔ other = name := by
    rw [hargument, (of_splitOption_eq_none h).1]
    change '-' :: '-' :: other.toList = '-' :: '-' :: name.toList ↔ _
    rw [List.cons_inj_right, List.cons_inj_right, String.toList_inj]
  rw [optionValue?]
  simp only [if_neg hend, hoption]
  split
  · rfl
  · next hne =>
    split
    · next value hvalue =>
      obtain rfl : text = name.toList ++ '=' :: value := by
        simpa [hargument] using dropPrefix?_option_eq_some_iff.1 hvalue
      rw [splitOption_of_sign hname] at h
      cases h
    · rfl

/-- An option with an equals sign. -/
theorem optionValue?_cons_of_some (hname : '=' ∉ name.toList)
    (hargument : argument.toList = '-' :: '-' :: text)
    (h : splitOption text = (other, some value)) :
    optionValue? name (argument :: rest) =
      if other = name then some value else optionValue? name rest := by
  obtain ⟨htext, hother⟩ := of_splitOption_eq_some h
  have hmem : '=' ∈ text := by simp [htext]
  have hend : argument.toList ≠ "--".toList := by
    rw [hargument]
    intro heq
    rw [(List.cons.inj (List.cons.inj heq).2).2] at hmem
    cases hmem
  have hoption : argument.toList ≠ "--".toList ++ name.toList := by
    rw [hargument]
    intro heq
    have htail : text = name.toList := (List.cons.inj (List.cons.inj heq).2).2
    exact hname (htail ▸ hmem)
  rw [optionValue?]
  simp only [if_neg hend, if_neg hoption]
  split
  · next value' hvalue =>
    obtain rfl : text = name.toList ++ '=' :: value' := by
      simpa [hargument] using dropPrefix?_option_eq_some_iff.1 hvalue
    rw [splitOption_of_sign hname] at h
    cases h
    exact (if_pos rfl).symm
  · next hnone =>
    rw [if_neg]
    rintro rfl
    rw [dropPrefix?_option_eq_some_iff.2 (by rw [hargument, htext])] at hnone
    cases hnone

/-! ### Sorting -/

theorem exists_of_bind_eq_ok {ε α β : Type} {x : Except ε α} {f : α → Except ε β} {b : β}
    (h : x >>= f = .ok b) : ∃ a, x = .ok a ∧ f a = .ok b := by
  cases x with
  | error e => cases h
  | ok a => exact ⟨a, rfl, h⟩

namespace Sorted

variable {s s' : Sorted} {rule : OptionRule}

theorem options_of_takeFile (h : s.takeFile argument = .ok s') : s'.options = s.options := by
  rw [takeFile] at h
  split at h
  · cases h
  split at h
  · cases h
  · cases h
    rfl

theorem options_of_foldlM_takeFile (h : arguments.foldlM takeFile s = .ok s') :
    s'.options = s.options := by
  induction arguments generalizing s with
  | nil =>
    cases h
    rfl
  | cons argument rest ih =>
    obtain ⟨s₁, htake, hrest⟩ := exists_of_bind_eq_ok h
    rw [ih hrest, options_of_takeFile htake]

/-- An option is taken once, with a value that its rule accepts. -/
theorem of_takeOption (h : s.takeOption rule value = .ok s') :
    s.options.lookup rule.name = none ∧ rule.accepts.all (· value) = true ∧
      s'.options = s.options ++ [(rule.name, value)] := by
  rw [takeOption] at h
  split at h
  · cases h
  · next hnone =>
    split at h
    · next haccepts =>
      cases h
      exact ⟨Option.not_isSome_iff_eq_none.1 hnone, haccepts, rfl⟩
    · cases h

/-- The value of an option once another argument has been taken. -/
theorem lookup_or_of_takeOption (h : s.takeOption rule value = .ok s') (x : Option String) :
    (s'.options.lookup name).or x =
      (s.options.lookup name).or (if rule.name = name then some value else x) := by
  obtain ⟨hnone, -, hoptions⟩ := of_takeOption h
  rw [hoptions, List.lookup_append, Option.or_assoc]
  split
  · next heq =>
    subst heq
    rw [hnone, Option.none_or, Option.none_or, List.lookup_cons_self, Option.some_or]
  · next hne =>
    rw [List.lookup_cons, beq_eq_false_iff_ne.2 (Ne.symm hne)]
    rfl

end Sorted

variable {rules : List OptionRule} {accepts : String → Bool} {s s' : Sorted}

theorem name_of_find? {rule : OptionRule} (h : rules.find? (·.name == name) = some rule) :
    rule.name = name := by
  simpa using List.find?_some h

/-- What each taken argument keeps is kept by sorting. -/
theorem sort_induction {P : Sorted → Prop}
    (hfile : ∀ {s s' : Sorted} {argument : String}, P s → s.takeFile argument = .ok s' → P s')
    (hoption : ∀ {s s' : Sorted} {rule : OptionRule} {value : String}, P s →
      rules.find? (·.name == rule.name) = some rule → s.takeOption rule value = .ok s' → P s')
    (hs : P s) (h : sort rules s arguments = .ok (some s')) : P s' := by
  fun_induction sort rules s arguments with
  | case1 s =>
    cases h
    exact hs
  | case2 s argument rest hend =>
    obtain ⟨s₁, hrest, heq⟩ := exists_of_bind_eq_ok h
    cases heq
    clear h
    induction rest generalizing s with
    | nil =>
      cases hrest
      exact hs
    | cons file rest ih =>
      obtain ⟨s₁, htake, hrest⟩ := exists_of_bind_eq_ok hrest
      exact ih _ (hfile hs htake) hrest
  | case3 s argument rest text htext hargument other rule value hother haccepts hsplit ih =>
    obtain ⟨s₁, htake, hrest⟩ := exists_of_bind_eq_ok h
    exact ih s₁ (hoption hs (by rwa [name_of_find? hother]) htake) hrest
  | case5 s argument rest text htext hargument other rule hother hflag hsplit ih =>
    obtain ⟨s₁, htake, hrest⟩ := exists_of_bind_eq_ok h
    exact ih s₁ (hoption hs (by rwa [name_of_find? hother]) htake) hrest
  | case7 s argument text htext hargument other rule hother hvalued value rest hvalue hsplit ih =>
    obtain ⟨s₁, htake, hrest⟩ := exists_of_bind_eq_ok h
    exact ih s₁ (hoption hs (by rwa [name_of_find? hother]) htake) hrest
  | case14 s argument rest hend hargument hhelp hflag ih =>
    obtain ⟨s₁, htake, hrest⟩ := exists_of_bind_eq_ok h
    exact ih s₁ (hfile hs htake) hrest
  | _ => cases h

/-- The value of an option is one that its rule accepts. -/
theorem accepts_of_sort (hrule : rules.find? (·.name == name) = some ⟨name, some accepts⟩)
    (h : sort rules .empty arguments = .ok (some s'))
    (hvalue : s'.options.lookup name = some value) : accepts value := by
  refine sort_induction (P := fun s => ∀ v, s.options.lookup name = some v → accepts v)
    (fun hs htake => ?_) (fun {s s₁ rule value'} hs hother htake v hv => ?_)
    (fun v hv => ?_) h value hvalue
  · rwa [Sorted.options_of_takeFile htake]
  · obtain ⟨hnone, haccepts, hoptions⟩ := Sorted.of_takeOption htake
    rw [hoptions, List.lookup_append] at hv
    rcases Option.or_eq_some_iff.1 hv with hold | ⟨-, hnew⟩
    · exact hs v hold
    · rw [List.lookup_cons] at hnew
      split at hnew
      · next heq =>
        cases hnew
        rw [← eq_of_beq heq, hrule] at hother
        cases hother
        exact haccepts
      · cases hnew
  · cases hv

/-- **Sorting finds the value of an option** where it stands in the arguments. -/
theorem lookup_options_of_sort (hname : '=' ∉ name.toList)
    (hrule : rules.find? (·.name == name) = some ⟨name, some accepts⟩)
    (h : sort rules s arguments = .ok (some s')) :
    s'.options.lookup name = (s.options.lookup name).or (optionValue? name arguments) := by
  fun_induction sort rules s arguments with
  | case1 s =>
    cases h
    rw [optionValue?, Option.or_none]
  | case2 s argument rest hend =>
    obtain ⟨s₁, hrest, heq⟩ := exists_of_bind_eq_ok h
    cases heq
    rw [Sorted.options_of_foldlM_takeFile hrest, optionValue?_cons_end hend, Option.or_none]
  | case3 s argument rest text htext hargument other rule value hother haccepts hsplit ih =>
    obtain ⟨s₁, htake, hrest⟩ := exists_of_bind_eq_ok h
    rw [ih s₁ hrest, Sorted.lookup_or_of_takeOption htake, name_of_find? hother,
      optionValue?_cons_of_some hname hargument hsplit]
  | case5 s argument rest text htext hargument other rule hother hflag hsplit ih =>
    obtain ⟨s₁, htake, hrest⟩ := exists_of_bind_eq_ok h
    have hne : other ≠ name := by
      rintro rfl
      rw [hrule] at hother
      cases hother
      cases hflag
    rw [ih s₁ hrest, Sorted.lookup_or_of_takeOption htake, name_of_find? hother,
      optionValue?_cons_of_none hname hargument htext hsplit, if_neg hne, if_neg hne]
  | case7 s argument text htext hargument other rule hother hvalued value rest hvalue hsplit ih =>
    obtain ⟨s₁, htake, hrest⟩ := exists_of_bind_eq_ok h
    -- A value that is no option is skipped.
    have hskip : ∀ text, value.toList ≠ '-' :: '-' :: text := by
      intro text heq
      rw [isOption, heq] at hvalue
      exact hvalue rfl
    rw [ih s₁ hrest, Sorted.lookup_or_of_takeOption htake, name_of_find? hother,
      optionValue?_cons_of_none hname hargument htext hsplit, optionValue?_cons_of_ne hskip]
    rfl
  | case14 s argument rest hend hoption hhelp hflag ih =>
    obtain ⟨s₁, htake, hrest⟩ := exists_of_bind_eq_ok h
    rw [ih s₁ hrest, Sorted.options_of_takeFile htake, optionValue?_cons_of_ne hoption]
  | _ => cases h

/-- The path that an option gives is the one found in the arguments. -/
theorem value?_eq_optionValue? (hname : '=' ∉ name.toList)
    (hrule : rules.find? (·.name == name) = some (valued name readPath?))
    (h : sort rules .empty arguments = .ok (some s')) :
    s'.value? name readPath? = optionValue? name arguments := by
  have hlookup : s'.options.lookup name = optionValue? name arguments :=
    lookup_options_of_sort hname hrule h
  rw [Sorted.value?, hlookup]
  cases hvalue : optionValue? name arguments with
  | none => rfl
  | some value =>
    have haccepts := accepts_of_sort hrule h (hlookup.trans hvalue)
    rw [Option.bind_some]
    rw [readPath?] at haccepts ⊢
    split
    · next hempty =>
      rw [if_pos hempty] at haccepts
      cases haccepts
    · rfl

/-- A command is built from sorted arguments. -/
theorem exists_of_read_eq_run {rule : CommandRule} {command : Command}
    (h : rule.read arguments = .ok (.run command)) :
    ∃ s file, sort rule.options .empty arguments = .ok (some s) ∧ command = rule.build file s := by
  obtain ⟨sorted, hsort, hbuild⟩ := exists_of_bind_eq_ok h
  cases sorted with
  | none => cases hbuild
  | some s =>
    cases hfile : s.file with
    | none =>
      simp only [hfile] at hbuild
      cases hbuild
    | some file =>
      simp only [hfile] at hbuild
      cases hbuild
      exact ⟨s, file, hsort, rfl⟩

theorem readHelp_ne_run (arguments : List String) (command : Command) :
    readHelp arguments ≠ .ok (.run command) := by
  rw [readHelp.eq_def]
  repeat' split
  all_goals exact nofun

/-- **The output file of a command** is the one that the arguments name. -/
theorem outputNamed?_eq {command : Command} (h : Invocation.read arguments = .ok (.run command)) :
    outputNamed? arguments = command.output? := by
  have hout : '=' ∉ "out".toList := by decide
  have hreport : '=' ∉ "report".toList := by decide
  rw [Invocation.read.eq_def] at h
  split at h
  · cases h
  · exact absurd h (readHelp_ne_run _ command)
  · next name rest _ =>
    split at h
    · next rule hrule =>
      obtain rfl : rule.name = name := by simpa using List.find?_some hrule
      obtain ⟨s, file, hsort, rfl⟩ := exists_of_read_eq_run h
      have hmem := List.mem_of_find?_eq_some hrule
      simp only [commandRules, List.mem_cons, List.not_mem_nil, or_false] at hmem
      rcases hmem with rfl | rfl | rfl | rfl
      · exact (value?_eq_optionValue? hout rfl hsort).symm
      · exact (value?_eq_optionValue? hout rfl hsort).symm
      · exact congrArg (fun out => some (out.getD defaultMeshFile))
          (value?_eq_optionValue? hout rfl hsort).symm
      · exact (value?_eq_optionValue? hreport rfl hsort).symm
    · split at h <;> cases h

end SolidScene.CommandLine
