import Mathlib.Logic.Basic
import SolidScene.Disk.Tree

/-!
# What was written can be read

A written file stands where its path text leads, before and after: the way there goes through
folders only, and none of them is the file (`follow_put`).  So a path text that a file was written
to leads to this file (`find_of_write?`), with this content (`read?_of_write?`).

Nothing else is touched: making folders changes no file (`content?_makeFolders`), and writing one
changes no other (`find_of_content?_ne`).
-/

namespace SolidScene.Disk.Tree

variable {t t' : Tree} {p q start : Path} {e : Entry} {name text : String} {content : ByteArray}

/-! ### Putting an entry -/

theorem lookup_put_self (hp : p ≠ []) : lookup? (t.put p e) p = some e := by
  rw [lookup?, if_neg hp, put]
  simp

theorem lookup_put_of_ne (h : q ≠ p) : lookup? (t.put p e) q = t.lookup? q := by
  simp [lookup?, put, h]

theorem isSome_lookup_put (h : (t.lookup? q).isSome) : (lookup? (t.put p e) q).isSome := by
  rcases eq_or_ne q [] with rfl | hq
  · rfl
  rcases eq_or_ne q p with rfl | hne
  · rw [lookup_put_self hq, Option.isSome_some]
  · rwa [lookup_put_of_ne hne]

/-! ### Following names -/

theorem follow_append (t : Tree) (start : Path) (names rest : List String) :
    t.follow start (names ++ rest) = (t.follow start names).bind (t.follow · rest) := by
  induction names generalizing start with
  | nil => rfl
  | cons name names ih =>
    rw [List.cons_append, follow, follow]
    split
    · rfl
    · rfl
    · repeat' split
      · exact ih _
      · exact ih _
      · rfl
      · rfl
      · exact ih _

/-- Where one name leads. -/
inductive Leads (t : Tree) (start : Path) (name : String) : Path → Prop
  | stay (h : staysPut name) : Leads t start name start
  | back (h : name = "..") : Leads t start name start.dropLast
  | enter (hstay : ¬ staysPut name) (hback : name ≠ "..") (hsize : name.utf8ByteSize ≤ longestName)
    (h : (t.lookup? (start ++ [name])).isSome) : Leads t start name (start ++ [name])

/-- One name is followed from a folder. -/
theorem follow_singleton_eq_ok_iff :
    t.follow start [name] = .ok q ↔ t.lookup? start = some .folder ∧ t.Leads start name q := by
  constructor
  · intro h
    rw [follow] at h
    split at h
    · cases h
    · cases h
    · next hstart =>
      refine ⟨hstart, ?_⟩
      split at h
      · next hstay =>
        cases h
        exact .stay hstay
      split at h
      · next hback =>
        cases h
        exact .back hback
      split at h
      · cases h
      split at h
      · cases h
      · next hstay hback hsize hsome =>
        cases h
        refine .enter hstay hback (Nat.le_of_not_lt hsize) ?_
        rwa [Bool.not_eq_true, Option.isNone_eq_false_iff] at hsome
  · rintro ⟨hstart, hleads⟩
    rw [follow, hstart]
    cases hleads with
    | stay h => exact if_pos h
    | back h =>
      subst h
      exact (if_neg (by decide)).trans (if_pos rfl)
    | enter hstay hback hsize h =>
      rw [← Option.isNone_eq_false_iff] at h
      simp only [hstay, hback, h, if_neg (Nat.not_lt.2 hsize), follow, Bool.false_eq_true, if_false]

theorem Leads.put (h : t.Leads start name q) : (t.put p e).Leads start name q := by
  cases h with
  | stay h => exact .stay h
  | back h => exact .back h
  | enter hstay hback hsize h => exact .enter hstay hback hsize (isSome_lookup_put h)

/-- A way through folders stays the same when an entry is put where there is no folder. -/
theorem follow_put (hp : t.lookup? p ≠ some .folder) {names : List String}
    (h : t.follow start names = .ok q) : (t.put p e).follow start names = .ok q := by
  induction names generalizing start with
  | nil => exact h
  | cons name names ih =>
    rw [← List.singleton_append, follow_append] at h ⊢
    cases hstep : t.follow start [name] with
    | error fault =>
      rw [hstep] at h
      cases h
    | ok r =>
      rw [hstep] at h
      obtain ⟨hstart, hleads⟩ := follow_singleton_eq_ok_iff.1 hstep
      have hne : start ≠ p := by
        rintro rfl
        exact hp hstart
      have hstep' : (t.put p e).follow start [name] = .ok r :=
        follow_singleton_eq_ok_iff.2 ⟨by rwa [lookup_put_of_ne hne], hleads.put⟩
      rw [hstep']
      exact ih h

/-! ### Written files -/

/-- A target is a name that can be entered, below a folder that the names in front of it lead to. -/
theorem exists_of_findTarget (h : t.findTarget text = .ok p) :
    ∃ above name, text.utf8ByteSize ≤ longestPath ∧
      (t.split text).2.getLast?.getD "" = name ∧
      t.follow (t.split text).1 (t.split text).2.dropLast = .ok above ∧
      t.lookup? above = some .folder ∧ ¬ staysPut name ∧ name ≠ ".." ∧
      name.utf8ByteSize ≤ longestName ∧ p = above ++ [name] := by
  simp only [findTarget, bind, Except.bind, throw, throwThe, MonadExceptOf.throw, pure,
    Except.pure] at h
  split at h
  · cases h
  split at h
  · cases h
  split at h
  · cases h
  split at h
  · cases h
  split at h
  · next hlong hname hsize _ above habove _ hfolder =>
    obtain ⟨hstay, hback⟩ := not_or.1 hname
    exact ⟨above, _, Nat.le_of_not_lt hlong, rfl, habove, hfolder, hstay, hback,
      Nat.le_of_not_lt hsize, (Except.ok.inj h).symm⟩
  · cases h

/-- The last name of a path text that is a target. -/
theorem split_eq_append {names : List String} {name : String}
    (h : names.getLast?.getD "" = name) (hname : ¬ staysPut name) :
    names = names.dropLast ++ [name] := by
  rcases List.eq_nil_or_concat names with rfl | ⟨init, last, rfl⟩
  · subst h
    exact absurd rfl hname
  · rw [List.concat_eq_append, List.getLast?_concat, Option.getD_some] at h
    rw [List.concat_eq_append, List.dropLast_concat, h]

/-- **A written file** stands where its path text leads. -/
theorem find_of_write? (h : t.write? text content = some t') :
    ∃ p, p ≠ [] ∧ t' = t.put p (.file content) ∧ t'.find text = .ok p := by
  rw [write?] at h
  split at h
  · next p htarget =>
    split at h
    · cases h
    · next hfolder =>
      obtain rfl := Option.some.inj h
      obtain ⟨above, name, hlong, hlast, habove, hentry, hstay, hback, hsize, rfl⟩ :=
        exists_of_findTarget htarget
      have hne : above ++ [name] ≠ [] := List.append_ne_nil_of_right_ne_nil _ (List.cons_ne_nil _ _)
      refine ⟨_, hne, rfl, ?_⟩
      have hempty : text ≠ "" := by
        rintro rfl
        exact hstay (hlast ▸ rfl)
      have hdiffer : above ≠ above ++ [name] := fun heq => by simpa using congrArg List.length heq
      have hleads : (t.put (above ++ [name]) (.file content)).Leads above name (above ++ [name]) :=
        .enter hstay hback hsize (by rw [lookup_put_self hne, Option.isSome_some])
      rw [find, if_neg hempty, if_neg (Nat.not_lt.2 hlong)]
      change follow _ (t.split text).1 (t.split text).2 = _
      rw [split_eq_append hlast hstay, follow_append, follow_put hfolder habove]
      exact follow_singleton_eq_ok_iff.2 ⟨by rwa [lookup_put_of_ne hdiffer], hleads⟩
  · cases h

/-- **A written file** holds what was written. -/
theorem read?_of_write? (h : t.write? text content = some t') : t'.read? text = some content := by
  obtain ⟨p, hp, rfl, hfind⟩ := find_of_write? h
  rw [read?, hfind]
  simp only [content?, lookup_put_self hp]

/-! ### Other files -/

/-- A folder put where there is nothing changes no file. -/
theorem content?_put_folder (h : t.lookup? p = none) : (t.put p .folder).content? = t.content? := by
  funext q
  rcases eq_or_ne q p with rfl | hne
  · have hq : q ≠ [] := by
      rintro rfl
      cases h
    simp only [content?, lookup_put_self hq, h]
  · simp only [content?, lookup_put_of_ne hne]

theorem content?_makeAlong (t : Tree) (start : Path) (names : List String) :
    (t.makeAlong start names).content? = t.content? := by
  induction names generalizing t start with
  | nil => rfl
  | cons name rest ih =>
    rw [makeAlong]
    split
    · exact ih t start
    split
    · exact ih t start.dropLast
    split
    · rfl
    split
    · rfl
    · exact ih t (start ++ [name])
    · next hnone => rw [ih, content?_put_folder hnone]

/-- **Making folders** changes no file. -/
theorem content?_makeFolders (t : Tree) (text : String) :
    (t.makeFolders text).content? = t.content? := by
  rw [makeFolders]
  split
  · rfl
  · exact content?_makeAlong t _ _

/-- **Writing a file** changes no other. -/
theorem find_of_content?_ne (h : t.write? text content = some t')
    (hne : t'.content? p ≠ t.content? p) : t'.find text = .ok p := by
  obtain ⟨q, -, rfl, hfind⟩ := find_of_write? h
  rcases eq_or_ne p q with rfl | hpq
  · exact hfind
  · rw [content?, lookup_put_of_ne hpq] at hne
    exact absurd rfl hne

end SolidScene.Disk.Tree
