import SolidScene.Proofs.CommandLine.Arguments
import SolidScene.Proofs.CommandLine.Run

/-!
# The files that a run leaves alone

Looking for the file of a command, and for a workspace to advise, asks the disk and changes nothing
(`IsReadOnly`).  What a command puts out is delivered last of all, by making folders, which are no
files, and one write.  So a run that fails changes no file, and one that succeeds changes none but
the output file that its arguments name (`content?_run`).
-/

namespace SolidScene.CommandLine

open Disk (Tree Path)

/-! ### Asking the disk -/

/-- Whether a run on a tree leaves it as it is. -/
def IsReadOnly {α : Type} (x : StateM Tree α) : Prop := ∀ t, (x.run t).2 = t

namespace IsReadOnly

variable {α β : Type}

theorem pure (a : α) : IsReadOnly (pure a) := fun _ => rfl

theorem bind {x : StateM Tree α} {f : α → StateM Tree β} (hx : IsReadOnly x)
    (hf : ∀ a, IsReadOnly (f a)) : IsReadOnly (x >>= f) := fun t => by
  rw [StateT.run_bind]
  exact (hf _ _).trans (hx t)

theorem current : IsReadOnly (Disk.Access.current : StateM Tree Path) := fun _ => rfl

theorem status (text : String) : IsReadOnly (Disk.Access.status text : StateM Tree Disk.Status) :=
  fun _ => rfl

theorem read (text : String) :
    IsReadOnly (Disk.Access.read text : StateM Tree (Option ByteArray)) := fun _ => rfl

end IsReadOnly

theorem isReadOnly_isWorkspace (folder : Path) :
    IsReadOnly (isWorkspace folder : StateM Tree Bool) := by
  refine .bind (.read _) fun content => ?_
  split
  · exact .pure _
  · exact .pure _

theorem isReadOnly_firstWorkspace? (folders : List Path) :
    IsReadOnly (firstWorkspace? folders : StateM Tree (Option Path)) := by
  induction folders with
  | nil => exact .pure _
  | cons folder rest ih =>
    refine .bind (isReadOnly_isWorkspace folder) fun found => ?_
    split
    · exact .pure _
    · exact ih

/-- **Obtaining the text** of a file changes nothing, also where there is none. -/
theorem isReadOnly_obtain (role : Role) (path : String) :
    IsReadOnly (obtain role path : StateM Tree (Except Problem String)) := by
  refine .bind (.status path) fun status => ?_
  cases status with
  | missing =>
    exact .bind .current fun _ => .bind (isReadOnly_firstWorkspace? _) fun _ => .pure _
  | unreachable => exact .pure _
  | folder => exact .pure _
  | file =>
    refine .bind (.read path) fun content => ?_
    split
    · exact .pure _
    · exact .pure _

/-! ### Delivering -/

/-- The file that an output goes to. -/
def Output.path? : Output → Option String
  | .print _ => none
  | .save _ path _ => some path

theorem path?_ofText (product : Product) (text : String) (path : Option String) :
    (Output.ofText product text path).path? = path := by
  cases path <;> rfl

/-- What a command puts out goes to its output file. -/
theorem path?_of_evaluate {command : Command} {text : String} {output : Output}
    (h : command.evaluate text = .ok output) : output.path? = command.output? := by
  cases command with
  | generate scene out change =>
    obtain ⟨file, -, heq⟩ := exists_of_bind_eq_ok h
    rw [← Except.ok.inj heq]
    exact path?_ofText _ _ _
  | parse script out structured unit =>
    rw [← Except.ok.inj h]
    exact path?_ofText _ _ _
  | exportStl scene out format segments =>
    obtain ⟨file, -, hfile⟩ := exists_of_bind_eq_ok h
    split at hfile
    · cases hfile
    · rw [← Except.ok.inj hfile]
      rfl
  | inspect scene report =>
    obtain ⟨file, -, heq⟩ := exists_of_bind_eq_ok h
    rw [← Except.ok.inj heq]
    exact path?_ofText _ _ _

/-- What a run with some output file does to the files of a tree. -/
structure Frame (path? : Option String) (t : Tree) (r : Outcome × Tree) : Prop where
  failure : r.1.exitCode ≠ 0 → r.2.content? = t.content?
  success : r.1.exitCode = 0 → ∀ p, r.2.content? p ≠ t.content? p →
    ∃ path, path? = some path ∧ r.2.find path = .ok p

namespace Frame

variable {path? : Option String} {t : Tree}

/-- A run that leaves the tree as it is. -/
theorem unchanged (path? : Option String) (t : Tree) (o : Outcome) : Frame path? t (o, t) :=
  ⟨fun _ => rfl, fun _ _ h => absurd rfl h⟩

end Frame

theorem frame_deliverOn (output : Output) (t : Tree) :
    Frame output.path? t (deliverOn output t) := by
  cases output with
  | print text => exact .unchanged _ t _
  | save product path content =>
    have hfolders := Tree.content?_makeFolders t (Disk.folderAbove path)
    rw [deliverOn_save]
    generalize t.makeFolders (Disk.folderAbove path) = made at hfolders
    cases hwrite : made.write? path content with
    | none =>
      change Frame (some path) t (Outcome.failure (.unwritable product path), made)
      exact ⟨fun _ => hfolders, fun h => absurd h Nat.one_ne_zero⟩
    | some t' =>
      change Frame (some path) t (Outcome.success "", t')
      refine ⟨fun h => (h rfl).elim, fun _ p hne => ⟨path, rfl, ?_⟩⟩
      exact Tree.find_of_content?_ne hwrite (by rwa [hfolders])

/-- A command evaluates the text of its file, and delivers what comes of it. -/
theorem frame_evaluate (command : Command) (text : String) (t : Tree) :
    Frame command.output? t (StateT.run (m := Id) (match command.evaluate text with
      | .error problem => pure (Outcome.failure problem)
      | .ok output => deliver output) t) := by
  cases heval : command.evaluate text with
  | error problem => exact .unchanged _ t _
  | ok output =>
    rw [← path?_of_evaluate heval]
    exact frame_deliverOn output t

theorem frame_runOn (command : Command) (t : Tree) :
    Frame command.output? t (command.runOn t) := by
  have hsame := isReadOnly_obtain command.role command.file t
  rw [Command.runOn, Command.run, StateT.run_bind]
  generalize (obtain command.role command.file : StateM Tree (Except Problem String)).run t = r
    at hsame
  obtain ⟨result, t'⟩ := r
  obtain rfl : t' = t := hsame
  cases result with
  | error problem => exact .unchanged _ t' _
  | ok text => exact frame_evaluate command text t'

/-- **A run touches no file but its output.**  Whatever the arguments, the files and the current
folder are, a run that ends with another exit code than zero leaves every file as it was and makes
no new one; one that ends with zero changes or makes at most one file, the one to which the path
text leads that the arguments name for output. -/
theorem content?_run (arguments : List String) (t : Tree) :
    let (o, t') := (run arguments : StateM Tree Outcome).run t
    (o.exitCode ≠ 0 → ∀ p, t'.content? p = t.content? p) ∧
    (o.exitCode = 0 → ∀ p, t'.content? p ≠ t.content? p →
      ∃ path, outputNamed? arguments = some path ∧ t'.find path = .ok p) := by
  have hframe : Frame (outputNamed? arguments) t ((run arguments : StateM Tree Outcome).run t) := by
    cases hread : Invocation.read arguments with
    | error e =>
      rw [run, hread]
      exact .unchanged _ t _
    | ok invocation =>
      cases invocation with
      | help =>
        rw [run, hread]
        exact .unchanged _ t _
      | run command =>
        rw [run, hread, outputNamed?_eq hread]
        exact frame_runOn command t
  exact ⟨fun h p => congrFun (hframe.failure h) p, hframe.success⟩

/-- A disk with a file of words on it. -/
def notesDisk : Tree := Tree.empty.put ["notes"] (.file "no shapes".toUTF8)

/-- A run that writes over the file it reads. -/
def parsedNotes : Outcome × Tree :=
  (run ["parse", "notes", "--out=notes"] : StateM Tree Outcome).run notesDisk

/-- A run that finds no scene in the file it reads. -/
def generatedNotes : Outcome × Tree :=
  (run ["generate", "notes", "--out", "made/notes"] : StateM Tree Outcome).run notesDisk

theorem content?_run_notesDisk :
    (parsedNotes.1.exitCode = 0 ∧
      parsedNotes.2.content? ["notes"] ≠ notesDisk.content? ["notes"] ∧
      ∃ path, outputNamed? ["parse", "notes", "--out=notes"] = some path ∧
        parsedNotes.2.find path = .ok ["notes"]) ∧
    (generatedNotes.1.exitCode ≠ 0 ∧
      ∀ p, generatedNotes.2.content? p = notesDisk.content? p) := by
  have hparsed : parsedNotes.1.exitCode = 0 := by decide +kernel
  have hchanged : parsedNotes.2.content? ["notes"] ≠ notesDisk.content? ["notes"] := by
    decide +kernel
  have hgenerated : generatedNotes.1.exitCode ≠ 0 := by decide +kernel
  exact ⟨⟨hparsed, hchanged,
      (content?_run ["parse", "notes", "--out=notes"] notesDisk).2 hparsed _ hchanged⟩,
    hgenerated, (content?_run ["generate", "notes", "--out", "made/notes"] notesDisk).1 hgenerated⟩

end SolidScene.CommandLine
