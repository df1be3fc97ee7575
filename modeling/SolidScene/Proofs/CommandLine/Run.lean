import SolidScene.CommandLine.Run
import SolidScene.Proofs.Disk.Tree

/-!
# Commands on a tree of files

A command that finds a text in its file evaluates that text, whatever else is on the disk
(`runOn_eq`); one that finds none fails (`exists_text?_of_exitCode`).  A text that was saved is what
the next command reads at the same path (`text?_of_deliverOn_save`).
-/

namespace SolidScene

open Disk (Tree)

namespace Disk.Tree

/-- The text in the file that a path text names. -/
def text? (t : Tree) (path : String) : Option String := (t.read? path).bind String.fromUTF8?

/-- Whether a file can be written at a path text once the folders above it have been made. -/
def CanSave (t : Tree) (path : String) : Prop :=
  ∃ content, ((t.makeFolders (folderAbove path)).write? path content).isSome

theorem fromUTF8?_toUTF8 (s : String) : String.fromUTF8? s.toUTF8 = some s :=
  dif_pos s.isValidUTF8

theorem text?_of_write? {t t' : Tree} {path text : String}
    (h : t.write? path text.toUTF8 = some t') : t'.text? path = some text := by
  rw [text?, read?_of_write? h, Option.bind_some, fromUTF8?_toUTF8]

/-- Whether a file can be written does not depend on what is written. -/
theorem isSome_write? {t : Tree} {path : String} {content : ByteArray}
    (h : (t.write? path content).isSome) (other : ByteArray) : (t.write? path other).isSome := by
  rw [write?] at h ⊢
  split at h
  · split at h
    · cases h
    · rfl
  · cases h

theorem canSave_iff {t : Tree} {path : String} (content : ByteArray) :
    t.CanSave path ↔ ((t.makeFolders (folderAbove path)).write? path content).isSome :=
  ⟨fun ⟨_, h⟩ => isSome_write? h content, fun h => ⟨content, h⟩⟩

/-- What can be read is a file. -/
theorem status_eq_file {t : Tree} {path : String} (h : (t.read? path).isSome) :
    t.status path = .file := by
  rw [status]
  cases hfind : t.find path with
  | error fault =>
    rw [read?, hfind] at h
    cases h
  | ok p =>
    rw [read?, hfind] at h
    exact if_pos h

end Disk.Tree

namespace CommandLine

/-- What a command shows on a tree, and the tree that it leaves. -/
def Command.runOn (command : Command) (t : Tree) : Outcome × Tree :=
  (command.run : StateM Tree Outcome).run t

/-- What putting something out shows on a tree, and the tree that it leaves. -/
def deliverOn (output : Output) (t : Tree) : Outcome × Tree :=
  (deliver output : StateM Tree Outcome).run t

variable {t : Tree} {command : Command} {text : String}

/-- The text of a file is obtained without a change to the tree. -/
theorem obtain_of_file (role : Role) {path : String} (h : t.status path = .file) :
    (obtain role path : StateM Tree (Except Problem String)).run t =
      (match t.text? path with
        | some text => .ok text
        | none => .error (.unreadable role path), t) := by
  have hstatus : (Disk.Access.status path : StateM Tree Disk.Status).run t =
      (t.status path, t) := rfl
  have hread : (Disk.Access.read path : StateM Tree (Option ByteArray)).run t = (t.read? path, t) :=
    rfl
  rw [obtain, StateT.run_bind, hstatus, h, Tree.text?]
  change StateT.run (Disk.Access.read path >>= fun content =>
    match content.bind String.fromUTF8? with
    | some text => pure (Except.ok text)
    | none => pure (Except.error (Problem.unreadable role path))) t = _
  rw [StateT.run_bind, hread]
  change StateT.run (match (t.read? path).bind String.fromUTF8? with
    | some text => pure (Except.ok text)
    | none => pure (Except.error (Problem.unreadable role path))) t = _
  cases (t.read? path).bind String.fromUTF8? <;> rfl

theorem obtain_eq (role : Role) {path : String} (h : t.text? path = some text) :
    (obtain role path : StateM Tree (Except Problem String)).run t = (.ok text, t) := by
  have hread : (t.read? path).isSome := by
    rw [Tree.text?] at h
    obtain ⟨content, hcontent, -⟩ := Option.bind_eq_some_iff.1 h
    rw [hcontent, Option.isSome_some]
  rw [obtain_of_file role (Tree.status_eq_file hread), h]

theorem exists_obtain_eq_error (role : Role) {path : String} (h : t.text? path = none) :
    ∃ problem t', (obtain role path : StateM Tree (Except Problem String)).run t =
      (.error problem, t') := by
  have hstatus : (Disk.Access.status path : StateM Tree Disk.Status).run t =
      (t.status path, t) := rfl
  cases hpath : t.status path with
  | file =>
    rw [obtain_of_file role hpath, h]
    exact ⟨_, _, rfl⟩
  | _ =>
    rw [obtain, StateT.run_bind, hstatus, hpath]
    exact ⟨_, _, rfl⟩

/-! ### A run -/

/-- **A command** evaluates the text of its file. -/
theorem runOn_eq (h : t.text? command.file = some text) :
    command.runOn t = match command.evaluate text with
      | .error problem => (.failure problem, t)
      | .ok output => deliverOn output t := by
  rw [Command.runOn, Command.run, StateT.run_bind, obtain_eq _ h]
  change StateT.run (match command.evaluate text with
    | .error problem => pure (Outcome.failure problem)
    | .ok output => deliver output) t = _
  cases command.evaluate text <;> rfl

/-- A command that does not find a text fails. -/
theorem exists_text?_of_exitCode (h : (command.runOn t).1.exitCode = 0) :
    ∃ text, t.text? command.file = some text := by
  cases htext : t.text? command.file with
  | some text => exact ⟨text, rfl⟩
  | none =>
    obtain ⟨problem, t', hobtain⟩ := exists_obtain_eq_error command.role htext
    rw [Command.runOn, Command.run, StateT.run_bind, hobtain] at h
    cases h

/-- What is saved is written, once the folders above it have been made. -/
theorem deliverOn_save (product : Product) (path : String) (content : ByteArray) (t : Tree) :
    deliverOn (.save product path content) t =
      match (t.makeFolders (Disk.folderAbove path)).write? path content with
      | some t' => (.success "", t')
      | none => (.failure (.unwritable product path), t.makeFolders (Disk.folderAbove path)) := by
  have hwrite (t : Tree) : (Disk.Access.write path content : StateM Tree Bool).run t =
      match t.write? path content with
      | some t' => (true, t')
      | none => (false, t) := by
    change StateT.run (match t.write? path content with
      | some t' => do set t'; return true
      | none => return false) t = _
    cases t.write? path content <;> rfl
  have hfolders : (Disk.Access.makeFolders (Disk.folderAbove path) : StateM Tree Unit).run t =
      ((), t.makeFolders (Disk.folderAbove path)) := rfl
  rw [deliverOn, deliver, StateT.run_bind, hfolders]
  generalize t.makeFolders (Disk.folderAbove path) = made
  change StateT.run (Disk.Access.write path content >>= fun written =>
    if written then pure (Outcome.success "")
    else pure (Outcome.failure (.unwritable product path)))
      made = _
  rw [StateT.run_bind, hwrite]
  cases made.write? path content <;> rfl

theorem exitCode_deliverOn_save (product : Product) (path : String) (content : ByteArray)
    (t : Tree) :
    (deliverOn (.save product path content) t).1.exitCode = 0 ↔ t.CanSave path := by
  rw [deliverOn_save, Tree.canSave_iff content]
  cases (t.makeFolders (Disk.folderAbove path)).write? path content <;>
    simp [Outcome.success, Outcome.failure]

/-- What a saved text leaves behind is read again at the same path. -/
theorem text?_of_deliverOn_save {product : Product} {path : String} {o : Outcome} {t' : Tree}
    (h : deliverOn (.save product path text.toUTF8) t = (o, t')) (hexit : o.exitCode = 0) :
    t'.text? path = some text := by
  rw [deliverOn_save] at h
  split at h
  · next written hwrite =>
    obtain ⟨-, rfl⟩ := Prod.mk.inj h
    exact Tree.text?_of_write? hwrite
  · obtain ⟨rfl, -⟩ := Prod.mk.inj h
    cases hexit

end CommandLine

end SolidScene
