import SolidScene.Proofs.Workspace.WellFormed

/-!
# The place that an operation writes to

An operation on a shape, on the selection or on the drag writes to one `Place` of the workspace, or
it is refused and nothing happens at all.

* `AgreeExcept p v w` says that two workspaces differ at most in the place `p`; to change a field of
  one shape is to differ in this place (`agreeExcept_setScale`, `agreeExcept_setPosition`).
* An operation that looks for its shape first is refused where there is none and writes where there
  is one (`refused_replyScene`, `step_of_replyScene`).
* `operations_exact` says for each operation when it is refused, with which answer, and what it
  writes where it is not.
-/

namespace SolidScene

/-- The parts of a workspace that operations on its scene write to one at a time. -/
inductive Place
  /-- The scale of the shape of an index. -/
  | scale (index : Nat)
  /-- The position of the shape of an index. -/
  | position (index : Nat)
  /-- The index that is selected. -/
  | selected
  /-- The index that is being dragged. -/
  | dragged
  deriving DecidableEq

/-! ### Changing one shape -/

namespace Scene

variable {α : Type} (scene : Scene) (index : Nat) {f : Shape → Shape} {g : Shape → α}

/-- What a change of one shape keeps of shapes is kept of all of them. -/
theorem map_getElem?_change (i : Nat) (h : ∀ s, g (f s) = g s) :
    (scene.change index f).shapes[i]?.map g = scene.shapes[i]?.map g := by
  rw [change, List.getElem?_modify, Option.map_eq_map, Option.map_map]
  refine congrArg (Option.map · _) (funext fun s => ?_)
  rw [Function.comp_apply]
  split
  · exact h s
  · rfl

/-- A change of one shape keeps all of the others. -/
theorem getElem?_change_of_ne {i : Nat} (h : index ≠ i) :
    (scene.change index f).shapes[i]? = scene.shapes[i]? := by
  rw [change, List.getElem?_modify_ne _ _ h]

/-- Where there is a shape, the change shows. -/
theorem map_getElem?_change_self (h : index < scene.shapes.length) :
    (scene.change index f).shapes[index]?.map g = some (g (f scene.shapes[index])) := by
  rw [change, List.getElem?_modify_eq, List.getElem?_eq_getElem h]
  rfl

end Scene

namespace Workspace

/-! ### Workspaces that agree outside a place -/

/-- Two workspaces that have the same shapes, selection, drag, parameters, script text and
subscribers, one place apart. -/
structure AgreeExcept (p : Place) (v w : Workspace) : Prop where
  length : v.scene.shapes.length = w.scene.shapes.length
  kind : ∀ i : Nat, v.scene.shapes[i]?.map (·.kind) = w.scene.shapes[i]?.map (·.kind)
  color : ∀ i : Nat, v.scene.shapes[i]?.map (·.color) = w.scene.shapes[i]?.map (·.color)
  scale : ∀ i : Nat, p ≠ .scale i →
    v.scene.shapes[i]?.map (·.scale) = w.scene.shapes[i]?.map (·.scale)
  position : ∀ i : Nat, p ≠ .position i →
    v.scene.shapes[i]?.map (·.position) = w.scene.shapes[i]?.map (·.position)
  selected : p ≠ .selected → v.scene.selected = w.scene.selected
  dragged : p ≠ .dragged → v.scene.dragged = w.scene.dragged
  parameters : v.parameters = w.parameters
  script : v.script = w.script

section Agreeing

variable (w : Workspace) (index : Nat)

theorem agreeExcept_setScale (scale : Float) :
    AgreeExcept (.scale index) { w with scene := w.scene.change index ({ · with scale }) } w where
  length := List.length_modify ..
  kind i := w.scene.map_getElem?_change index i fun _ => rfl
  color i := w.scene.map_getElem?_change index i fun _ => rfl
  scale i hne := by
    have hindex : index ≠ i := fun h => hne (congrArg Place.scale h)
    rw [w.scene.getElem?_change_of_ne index hindex]
  position i _ := w.scene.map_getElem?_change index i fun _ => rfl
  selected _ := rfl
  dragged _ := rfl
  parameters := rfl
  script := rfl

theorem agreeExcept_setPosition (position : Vec3) :
    AgreeExcept (.position index)
      { w with scene := w.scene.change index ({ · with position }) } w where
  length := List.length_modify ..
  kind i := w.scene.map_getElem?_change index i fun _ => rfl
  color i := w.scene.map_getElem?_change index i fun _ => rfl
  scale i _ := w.scene.map_getElem?_change index i fun _ => rfl
  position i hne := by
    have hindex : index ≠ i := fun h => hne (congrArg Place.position h)
    rw [w.scene.getElem?_change_of_ne index hindex]
  selected _ := rfl
  dragged _ := rfl
  parameters := rfl
  script := rfl

theorem agreeExcept_selected (choice : Option Nat) :
    AgreeExcept .selected { w with scene := { w.scene with selected := choice } } w where
  length := rfl
  kind _ := rfl
  color _ := rfl
  scale _ _ := rfl
  position _ _ := rfl
  selected hne := absurd rfl hne
  dragged _ := rfl
  parameters := rfl
  script := rfl

theorem agreeExcept_dragged (choice : Option Nat) :
    AgreeExcept .dragged { w with scene := { w.scene with dragged := choice } } w where
  length := rfl
  kind _ := rfl
  color _ := rfl
  scale _ _ := rfl
  position _ _ := rfl
  selected _ := rfl
  dragged hne := absurd rfl hne
  parameters := rfl
  script := rfl

end Agreeing

/-! ### Operations that are refused, and others -/

/-- A step that is answered so and does nothing: the workspace stays and no subscriber is called. -/
structure Refused (w : Workspace) (s : Step) (answer : Answer) : Prop where
  answer : (w.step s).answer = answer
  workspace : (w.step s).workspace = w
  calls : (w.step s).calls = []

/-- A step that is answered so and writes to one place: nothing else is changed and no subscriber is
called. -/
structure Writes (w : Workspace) (s : Step) (answer : Answer) (p : Place) : Prop where
  answer : (w.step s).answer = answer
  workspace : AgreeExcept p (w.step s).workspace w
  calls : (w.step s).calls = []

section Replies

variable {w : Workspace} {s : Step} {index : Nat} {f : Unit → Scene}

/-- A step that looks for its shape is refused where there is none. -/
theorem refused_replyScene (hstep : w.step s = w.replyScene ((w.scene.checkIndex index).map f))
    (h : w.scene.shapes.length ≤ index) :
    Refused w s (.failed (.indexOutOfRange index w.scene.shapes.length)) := by
  have hreply : w.step s = ⟨w, .failed (.indexOutOfRange index w.scene.shapes.length), []⟩ := by
    rw [hstep, Scene.checkIndex, if_neg (Nat.not_lt.2 h)]
    rfl
  constructor <;> rw [hreply]

/-- A step that looks for its shape does its work where there is one. -/
theorem step_of_replyScene (hstep : w.step s = w.replyScene ((w.scene.checkIndex index).map f))
    (h : index < w.scene.shapes.length) : w.step s = ⟨{ w with scene := f () }, .done, []⟩ := by
  rw [hstep, Scene.checkIndex, if_pos h]
  rfl

theorem writes_of_step {scene : Scene} {answer : Answer} {p : Place}
    (hstep : w.step s = ⟨{ w with scene }, answer, []⟩)
    (h : AgreeExcept p { w with scene } w) : Writes w s answer p := by
  constructor
  · rw [hstep]
  · rw [hstep]
    exact h
  · rw [hstep]

end Replies

section Operations

variable {w : Workspace} {index : Nat}

theorem step_setScale {scale : Float} (hvalid : scale.isFinite ∧ 0.0 < scale) :
    w.step (.setScale index scale) = w.replyScene
      ((w.scene.checkIndex index).map fun _ => w.scene.change index ({ · with scale })) := by
  rw [step, Scene.setScale, if_pos (Solid.validScale_iff.2 hvalid)]

/-- The scale is looked at before the index. -/
theorem refused_setScale {scale : Float} (hinvalid : ¬(scale.isFinite ∧ 0.0 < scale)) :
    Refused w (.setScale index scale) (.failed (.invalidScale scale)) := by
  have hreply : w.step (.setScale index scale) = ⟨w, .failed (.invalidScale scale), []⟩ := by
    rw [step, Scene.setScale, if_neg (mt Solid.validScale_iff.1 hinvalid)]
    rfl
  constructor <;> rw [hreply]

theorem writes_setScale {scale : Float} (hvalid : scale.isFinite ∧ 0.0 < scale)
    (h : index < w.scene.shapes.length) :
    Writes w (.setScale index scale) .done (.scale index) ∧
      (w.step (.setScale index scale)).workspace.scene.shapes[index]?.map (·.scale) =
        some scale := by
  have hstep := step_of_replyScene (step_setScale hvalid) h
  refine ⟨writes_of_step hstep (w.agreeExcept_setScale index scale), ?_⟩
  rw [hstep]
  exact w.scene.map_getElem?_change_self index h

theorem writes_setPosition {position : Vec3} (h : index < w.scene.shapes.length) :
    Writes w (.setPosition index position) .done (.position index) ∧
      (w.step (.setPosition index position)).workspace.scene.shapes[index]?.map (·.position) =
        some position := by
  have hstep := step_of_replyScene (s := .setPosition index position) rfl h
  refine ⟨writes_of_step hstep (w.agreeExcept_setPosition index position), ?_⟩
  rw [hstep]
  exact w.scene.map_getElem?_change_self index h

theorem writes_select (h : index < w.scene.shapes.length) :
    Writes w (.select (some index)) .done .selected ∧
      (w.step (.select (some index))).workspace.scene.selected = some index := by
  have hstep := step_of_replyScene (s := .select (some index)) rfl h
  refine ⟨writes_of_step hstep (w.agreeExcept_selected (some index)), ?_⟩
  rw [hstep]

theorem writes_select_none (w : Workspace) :
    Writes w (.select none) .done .selected ∧
      (w.step (.select none)).workspace.scene.selected = none :=
  ⟨writes_of_step rfl (w.agreeExcept_selected none), rfl⟩

theorem writes_beginDrag (h : index < w.scene.shapes.length) :
    Writes w (.beginDrag index) .done .dragged ∧
      (w.step (.beginDrag index)).workspace.scene.dragged = some index := by
  have hstep := step_of_replyScene (s := .beginDrag index) rfl h
  refine ⟨writes_of_step hstep (w.agreeExcept_dragged (some index)), ?_⟩
  rw [hstep]

theorem refused_dragTo {point : Vec3}
    (h : ¬(w.scene.dragged = some index ∧ index < w.scene.shapes.length)) :
    Refused w (.dragTo index point) (.moved false) := by
  have hreply : w.step (.dragTo index point) = ⟨w, .moved false, []⟩ := by
    rw [step, Scene.dragTo?, if_neg h]
  constructor <;> rw [hreply]

theorem writes_dragTo {point : Vec3} (hdragged : w.scene.dragged = some index)
    (h : index < w.scene.shapes.length) :
    Writes w (.dragTo index point) (.moved true) (.position index) ∧
      (w.step (.dragTo index point)).workspace.scene.shapes[index]?.map (·.position) =
        some ⟨point.x, 0.0, point.z⟩ := by
  have hstep : w.step (.dragTo index point) = ⟨{ w with
      scene := w.scene.change index ({ · with position := ⟨point.x, 0.0, point.z⟩ }) },
      .moved true, []⟩ := by
    rw [step, Scene.dragTo?, if_pos ⟨hdragged, h⟩]
  refine ⟨writes_of_step hstep (w.agreeExcept_setPosition index _), ?_⟩
  rw [hstep]
  exact w.scene.map_getElem?_change_self index h

end Operations

/-- **What operations on a scene do, exactly.**  An operation on a shape that is not there is
refused, and so is a scale that is not finite and above zero, which is looked at first, and a move
of a shape that is not the dragged one.  A refused operation leaves all of the workspace as it was.
Any other writes to one place, the scale or position of its shape, the selection or the drag, and
leaves everything else as it was; a dragged shape goes to the point under the pointer, on the
ground. -/
theorem operations_exact (w : Workspace) (index : Nat) :
    let count := w.scene.shapes.length
    let missing : Answer := .failed (.indexOutOfRange index count)
    (∀ scale : Float,
      let s := Step.setScale index scale
      let valid := scale.isFinite ∧ 0.0 < scale
      (¬valid → Refused w s (.failed (.invalidScale scale))) ∧
        (valid → count ≤ index → Refused w s missing) ∧
        (valid → index < count → Writes w s .done (.scale index) ∧
          (w.step s).workspace.scene.shapes[index]?.map (·.scale) = some scale)) ∧
    (∀ position : Vec3,
      let s := Step.setPosition index position
      (count ≤ index → Refused w s missing) ∧
        (index < count → Writes w s .done (.position index) ∧
          (w.step s).workspace.scene.shapes[index]?.map (·.position) = some position)) ∧
    ((count ≤ index → Refused w (.select (some index)) missing) ∧
      (index < count → Writes w (.select (some index)) .done .selected ∧
        (w.step (.select (some index))).workspace.scene.selected = some index) ∧
      (Writes w (.select none) .done .selected ∧
        (w.step (.select none)).workspace.scene.selected = none)) ∧
    ((count ≤ index → Refused w (.beginDrag index) missing) ∧
      (index < count → Writes w (.beginDrag index) .done .dragged ∧
        (w.step (.beginDrag index)).workspace.scene.dragged = some index)) ∧
    (∀ point : Vec3,
      let s := Step.dragTo index point
      (w.scene.dragged ≠ some index ∨ count ≤ index → Refused w s (.moved false)) ∧
        (w.scene.dragged = some index → index < count →
          Writes w s (.moved true) (.position index) ∧
            (w.step s).workspace.scene.shapes[index]?.map (·.position) =
              some ⟨point.x, 0.0, point.z⟩)) := by
  intro count missing
  refine ⟨fun scale => ⟨refused_setScale, fun hvalid => ?_, writes_setScale⟩,
    fun position => ⟨refused_replyScene rfl, writes_setPosition⟩,
    ⟨refused_replyScene rfl, writes_select, writes_select_none w⟩,
    ⟨refused_replyScene rfl, writes_beginDrag⟩, fun point => ⟨fun h => ?_, writes_dragTo⟩⟩
  · exact refused_replyScene (step_setScale hvalid)
  · refine refused_dragTo fun hdragging => ?_
    exact h.elim (absurd hdragging.1) (Nat.not_le.2 hdragging.2)

/-- Two shapes, the second of which is being dragged. -/
def draggingWorkspace : Workspace :=
  ⟨⟨[.atOrigin ⟨.box, 1.0⟩, .atOrigin ⟨.sphere, 2.0⟩], some 0, some 1⟩, .default, .empty⟩

/-- A scale that is no number is refused for what it is, though the shape is missing too; the
dragged shape follows the pointer, the other one does not. -/
theorem operations_exact_draggingWorkspace :
    let w := draggingWorkspace
    (¬((0.0 / 0.0 : Float).isFinite ∧ (0.0 : Float) < 0.0 / 0.0) ∧
        Refused w (.setScale 7 (0.0 / 0.0)) (.failed (.invalidScale (0.0 / 0.0)))) ∧
      (2 ≤ 7 ∧ Refused w (.beginDrag 7) (.failed (.indexOutOfRange 7 2))) ∧
      (w.scene.dragged ≠ some 0 ∧ Refused w (.dragTo 0 ⟨3.0, 4.0, 5.0⟩) (.moved false)) ∧
      w.scene.dragged = some 1 ∧
        Writes w (.dragTo 1 ⟨3.0, 4.0, 5.0⟩) (.moved true) (.position 1) ∧
        (w.step (.dragTo 1 ⟨3.0, 4.0, 5.0⟩)).workspace.scene.shapes[1]?.map (·.position) =
          some ⟨3.0, 0.0, 5.0⟩ := by
  intro w
  have hinvalid : ¬((0.0 / 0.0 : Float).isFinite ∧ (0.0 : Float) < 0.0 / 0.0) := by decide +kernel
  have hother : w.scene.dragged ≠ some 0 := by decide
  obtain ⟨hscale, -, -, hdrag, -⟩ := operations_exact w 7
  obtain ⟨-, -, -, -, hstays⟩ := operations_exact w 0
  obtain ⟨-, -, -, -, hmoves⟩ := operations_exact w 1
  exact ⟨⟨hinvalid, (hscale _).1 hinvalid⟩, ⟨by decide, hdrag.1 (by decide)⟩,
    ⟨hother, (hstays _).1 (.inl hother)⟩, rfl, (hmoves _).2 rfl (by decide)⟩

end Workspace

end SolidScene
