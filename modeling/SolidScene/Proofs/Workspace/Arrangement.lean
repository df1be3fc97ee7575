import SolidScene.Proofs.Workspace.WellFormed

/-!
# Arranging shapes is no business of the script

Where shapes are placed, how they are coloured, and what is selected or dragged never reaches the
script side of a workspace.

* `SameScript v w` says that two workspaces differ at most in these things; `Step.arranges` tells
  the steps that change nothing else.
* A step that arranges keeps the script side as it is (`sameScript_of_arranges`); any other step
  answers alike in two such workspaces, calls the same subscribers with the same texts, and leaves
  them alike (`SameScript.step`).
* `transcript_retouched` follows two whole runs, the second of which leaves out or replaces some of
  the steps that arrange.
-/

namespace SolidScene

/-- A step that only places, selects or drags shapes. -/
def Step.arranges : Step → Bool
  | setPosition .. | select _ | beginDrag _ | dragTo .. | endDrag => true
  | _ => false

/-- The second run is the first one with some of the steps that arrange left out, or replaced by
steps that arrange as well. -/
inductive Retouched : List Step → List Step → Prop
  | nil : Retouched [] []
  | keep (s : Step) {steps steps' : List Step} (rest : Retouched steps steps') :
      Retouched (s :: steps) (s :: steps')
  | leaveOut {s : Step} (hs : s.arranges) {steps steps' : List Step}
      (rest : Retouched steps steps') : Retouched (s :: steps) steps'
  | replace {s t : Step} (hs : s.arranges) (ht : t.arranges) {steps steps' : List Step}
      (rest : Retouched steps steps') : Retouched (s :: steps) (t :: steps')

/-! ### Solids of a scene -/

namespace Scene

variable (scene : Scene)

@[simp] theorem length_solids : scene.solids.length = scene.shapes.length := List.length_map ..

@[simp] theorem solids_add (kind : Kind) :
    (scene.add kind).solids = scene.solids ++ [⟨kind, 1.0⟩] := by
  simp [solids, add]

/-- A change of a shape that shows in its solid changes the list of solids in the same place. -/
theorem solids_change (index : Nat) {f : Shape → Shape} {g : Solid → Solid}
    (h : ∀ s, (f s).toSolid = g s.toSolid) :
    (scene.change index f).solids = scene.solids.modify index g := by
  refine List.ext_getElem? fun i => ?_
  simp only [solids, change, List.getElem?_map, List.getElem?_modify]
  cases scene.shapes[i]? with
  | none => rfl
  | some s =>
    by_cases hi : index = i
    · simp [hi, h]
    · simp [hi]

theorem solids_move (index : Nat) (position : Vec3) :
    (scene.change index ({ · with position })).solids = scene.solids := by
  have h := scene.solids_change index (f := ({ · with position })) (g := id) fun _ => rfl
  rwa [List.modify_id] at h

end Scene

namespace Workspace

/-- Two workspaces that differ at most in where shapes are placed, how they are coloured, and what
is selected and dragged. -/
structure SameScript (v w : Workspace) : Prop where
  solids : v.scene.solids = w.scene.solids
  parameters : v.parameters = w.parameters
  script : v.script = w.script

theorem SameScript.refl (w : Workspace) : SameScript w w := ⟨rfl, rfl, rfl⟩

theorem SameScript.symm {v w : Workspace} (h : SameScript v w) : SameScript w v :=
  ⟨h.solids.symm, h.parameters.symm, h.script.symm⟩

theorem SameScript.trans {u v w : Workspace} (h : SameScript u v) (h' : SameScript v w) :
    SameScript u w :=
  ⟨h.solids.trans h'.solids, h.parameters.trans h'.parameters, h.script.trans h'.script⟩

/-! ### Steps that arrange -/

section Arranging

variable {w : Workspace}

theorem sameScript_replyScene {result : Except SceneError Scene}
    (h : ∀ scene, result = .ok scene → scene.solids = w.scene.solids) :
    SameScript (w.replyScene result).workspace w := by
  cases result with
  | ok scene => exact ⟨h scene rfl, rfl, rfl⟩
  | error e => exact .refl w

theorem calls_replyScene (result : Except SceneError Scene) :
    (w.replyScene result).calls = [] := by
  cases result <;> rfl

/-- A step that arranges leaves the script side as it is. -/
theorem sameScript_of_arranges {s : Step} (hs : s.arranges) (w : Workspace) :
    SameScript (w.step s).workspace w := by
  cases s with
  | setPosition index position =>
    refine sameScript_replyScene fun scene hscene => ?_
    obtain ⟨-, rfl⟩ := Scene.map_checkIndex_eq_ok.1 hscene
    exact w.scene.solids_move index position
  | select choice =>
    refine sameScript_replyScene fun scene hscene => ?_
    cases choice with
    | none =>
      cases hscene
      rfl
    | some index =>
      obtain ⟨-, rfl⟩ := Scene.map_checkIndex_eq_ok.1 hscene
      rfl
  | beginDrag index =>
    refine sameScript_replyScene fun scene hscene => ?_
    obtain ⟨-, rfl⟩ := Scene.map_checkIndex_eq_ok.1 hscene
    rfl
  | dragTo index point =>
    rw [Workspace.step]
    by_cases hmoves : w.scene.dragged = some index ∧ index < w.scene.shapes.length
    · rw [Scene.dragTo?, if_pos hmoves]
      exact ⟨w.scene.solids_move index _, rfl, rfl⟩
    · rw [Scene.dragTo?, if_neg hmoves]
      exact .refl w
  | endDrag => exact ⟨rfl, rfl, rfl⟩
  | _ => exact absurd hs Bool.false_ne_true

/-- A step that arranges calls no subscriber. -/
theorem calls_of_arranges {s : Step} (hs : s.arranges) (w : Workspace) : (w.step s).calls = [] := by
  cases s with
  | setPosition index position => exact calls_replyScene _
  | select choice => exact calls_replyScene _
  | beginDrag index => exact calls_replyScene _
  | dragTo index point =>
    rw [Workspace.step]
    split <;> rfl
  | endDrag => rfl
  | _ => exact absurd hs Bool.false_ne_true

end Arranging

/-! ### Steps that do more -/

/-- Two replies that agree in all that the script side sees. -/
structure SameReply (a b : Reply) : Prop where
  workspace : SameScript a.workspace b.workspace
  answer : a.answer = b.answer
  calls : a.calls = b.calls

section Alike

variable {v w : Workspace}

theorem SameScript.length_eq (h : SameScript v w) :
    v.scene.shapes.length = w.scene.shapes.length := by
  rw [← v.scene.length_solids, ← w.scene.length_solids, h.solids]

/-- Whether a scale is accepted depends on the scale and on the number of shapes alone. -/
theorem SameScript.setScale (h : SameScript v w) (index : Nat) (scale : Float) :
    SameReply (v.step (.setScale index scale)) (w.step (.setScale index scale)) := by
  simp only [Workspace.step, Scene.setScale, Scene.checkIndex, h.length_eq]
  by_cases hvalid : Solid.validScale scale
  · by_cases hindex : index < w.scene.shapes.length
    · have hsolids (scene : Scene) := scene.solids_change index (f := ({ · with scale }))
        (g := ({ · with scale })) fun _ => rfl
      simp only [if_pos hvalid, if_pos hindex]
      refine ⟨⟨?_, h.parameters, h.script⟩, rfl, rfl⟩
      exact (hsolids v.scene).trans (h.solids ▸ (hsolids w.scene).symm)
    · simp only [if_pos hvalid, if_neg hindex]
      exact ⟨h, rfl, rfl⟩
  · simp only [if_neg hvalid]
    exact ⟨h, rfl, rfl⟩

/-- In workspaces that differ only in arrangement a step that does more than arrange does the
same. -/
theorem SameScript.step (h : SameScript v w) {s : Step} (hs : s.arranges = false) :
    SameReply (v.step s) (w.step s) := by
  cases s with
  | add kind =>
    refine ⟨⟨?_, h.parameters, h.script⟩, ?_, rfl⟩
    · simp only [Workspace.step, Scene.solids_add, h.solids]
    · simp only [Workspace.step, h.length_eq]
  | setScale index scale => exact h.setScale index scale
  | replace solids => exact ⟨⟨rfl, h.parameters, h.script⟩, rfl, rfl⟩
  | setParameters change =>
    refine ⟨⟨h.solids, ?_, h.script⟩, rfl, rfl⟩
    simp only [Workspace.step, h.parameters]
  | sync =>
    simp only [Workspace.step, withText, h.solids, h.parameters, h.script]
    exact ⟨⟨h.solids, rfl, rfl⟩, rfl, rfl⟩
  | edit text =>
    simp only [Workspace.step, withText, h.parameters, h.script]
    exact ⟨⟨rfl, rfl, rfl⟩, rfl, rfl⟩
  | setText text =>
    simp only [Workspace.step, withText, h.script]
    exact ⟨⟨h.solids, h.parameters, rfl⟩, rfl, rfl⟩
  | subscribe =>
    simp only [Workspace.step, h.script]
    exact ⟨⟨h.solids, h.parameters, rfl⟩, rfl, rfl⟩
  | unsubscribe handle =>
    simp only [Workspace.step, h.script]
    exact ⟨⟨h.solids, h.parameters, rfl⟩, rfl, rfl⟩
  | _ => exact absurd hs Bool.true_eq_false.mp

end Alike

/-! ### Runs -/

/-- What the script side sees of a run: each step that does more than arrange, with its answer and
the calls that subscribers received. -/
def transcript (w : Workspace) (steps : List Step) : List (Step × Answer × List Call) :=
  (steps.zip (w.replies steps)).filterMap fun (s, reply) =>
    if s.arranges then none else some (s, reply.answer, reply.calls)

/-- All calls that subscribers received in a run. -/
def callsOf (w : Workspace) (steps : List Step) : List Call := (w.replies steps).flatMap (·.calls)

theorem transcript_cons_of_arranges {s : Step} (hs : s.arranges) (w : Workspace)
    (steps : List Step) :
    w.transcript (s :: steps) = (w.step s).workspace.transcript steps := by
  simp [transcript, replies, hs]

theorem transcript_cons {s : Step} (hs : s.arranges = false) (w : Workspace)
    (steps : List Step) :
    w.transcript (s :: steps) =
      (s, (w.step s).answer, (w.step s).calls) :: (w.step s).workspace.transcript steps := by
  simp [transcript, replies, hs]

theorem callsOf_cons (w : Workspace) (s : Step) (steps : List Step) :
    w.callsOf (s :: steps) = (w.step s).calls ++ (w.step s).workspace.callsOf steps := rfl

theorem callsOf_cons_of_arranges {s : Step} (hs : s.arranges) (w : Workspace)
    (steps : List Step) : w.callsOf (s :: steps) = (w.step s).workspace.callsOf steps := by
  rw [callsOf_cons, calls_of_arranges hs, List.nil_append]

/-- **Arranging shapes never shows on the script side.**  Take two workspaces that differ at most in
the places and colours of shapes and in what is selected and dragged, and two runs of which the
second leaves out or replaces some steps that arrange.  All other steps answer alike and call the
same subscribers with the same texts, no other calls are made, and in the end the two workspaces
hold the same kinds and scales, parameters and script. -/
theorem transcript_retouched {v w : Workspace} (h : SameScript v w) {steps steps' : List Step}
    (hsteps : Retouched steps steps') :
    v.transcript steps = w.transcript steps' ∧ v.callsOf steps = w.callsOf steps' ∧
      SameScript (v.run steps) (w.run steps') := by
  induction hsteps generalizing v w with
  | nil => exact ⟨rfl, rfl, h⟩
  | keep s rest ih =>
    cases hs : s.arranges with
    | true =>
      have hv := sameScript_of_arranges hs v
      have hw := sameScript_of_arranges hs w
      rw [transcript_cons_of_arranges hs, transcript_cons_of_arranges hs,
        callsOf_cons_of_arranges hs, callsOf_cons_of_arranges hs]
      exact ih (hv.trans (h.trans hw.symm))
    | false =>
      obtain ⟨hworkspace, hanswer, hcalls⟩ := h.step hs
      obtain ⟨htranscript, hcallsOf, hrun⟩ := ih hworkspace
      rw [transcript_cons hs, transcript_cons hs, callsOf_cons, callsOf_cons, hanswer, hcalls,
        htranscript, hcallsOf]
      exact ⟨rfl, rfl, hrun⟩
  | leaveOut hs rest ih =>
    rw [transcript_cons_of_arranges hs, callsOf_cons_of_arranges hs]
    exact ih ((sameScript_of_arranges hs v).trans h)
  | replace hs ht rest ih =>
    have hv := sameScript_of_arranges hs v
    have hw := sameScript_of_arranges ht w
    rw [transcript_cons_of_arranges hs, transcript_cons_of_arranges ht,
      callsOf_cons_of_arranges hs, callsOf_cons_of_arranges ht]
    exact ih (hv.trans (h.trans hw.symm))

/-- A box at the origin, and a red one elsewhere that is being dragged. -/
def plainBox : Workspace := ofScene .start .default

@[inherit_doc plainBox]
def draggedBox : Workspace :=
  ofScene ⟨[⟨⟨.box, 1.0⟩, ⟨2.0, 0.0, 3.0⟩, some "red"⟩], some 0, some 0⟩ .default

/-- A run that writes, reads back and resizes in between selecting and dragging. -/
def draggingRun : List Step :=
  [.subscribe, .select (some 0), .add .sphere, .dragTo 0 ⟨1.0, 1.0, 1.0⟩, .sync,
    .setPosition 1 .zero, .edit "sphere(r=1.40);", .setScale 1 2.0]

/-- The same run without selecting, with another drag, and with a move that fails. -/
def retouchedRun : List Step :=
  [.subscribe, .add .sphere, .dragTo 1 .zero, .sync, .setPosition 7 .zero, .edit "sphere(r=1.40);",
    .setScale 1 2.0]

theorem transcript_retouched_draggingRun :
    (SameScript plainBox draggedBox ∧ Retouched draggingRun retouchedRun) ∧
      plainBox.transcript draggingRun = draggedBox.transcript retouchedRun ∧
      plainBox.callsOf draggingRun = draggedBox.callsOf retouchedRun ∧
      SameScript (plainBox.run draggingRun) (draggedBox.run retouchedRun) :=
  have hsame : SameScript plainBox draggedBox := ⟨rfl, rfl, rfl⟩
  have hsteps : Retouched draggingRun retouchedRun :=
    .keep _ <| .leaveOut rfl <| .keep _ <| .replace rfl rfl <| .keep _ <| .replace rfl rfl <|
      .keep _ <| .keep _ .nil
  ⟨⟨hsame, hsteps⟩, transcript_retouched hsame hsteps⟩

end Workspace

end SolidScene
