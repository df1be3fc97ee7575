import SolidScene.Workspace

/-!
# What a session keeps of its scene

In a well-formed scene every shape has a scale that is finite and above zero and the colour of its
kind, and what is selected or dragged is a shape of the scene.

* The scenes in which an editor starts are well formed, and so is any scene made from solids, since
  it leaves out those that have no valid scale.
* Each operation on a scene keeps it well formed where it succeeds, and where it fails the scene
  stays as it was; so every step of a workspace keeps it (`wellFormed_step`).
* `wellFormed_session` follows whole sessions from the scenes in which an editor starts.
-/

namespace SolidScene

theorem Solid.validScale_iff {scale : Float} :
    validScale scale ↔ scale.isFinite ∧ 0.0 < scale := by
  simp [validScale]

/-! ### Shapes -/

/-- A shape with a scale that is finite and above zero, in the colour of its kind. -/
structure Shape.WellFormed (s : Shape) : Prop where
  isFinite : s.scale.isFinite
  positive : 0.0 < s.scale
  color : s.color = some s.kind.defaultColor

theorem Shape.wellFormed_ofSolid (kind : Kind) {scale : Float} (h : Solid.validScale scale)
    (position : Vec3) : (ofSolid ⟨kind, scale⟩ position).WellFormed := by
  obtain ⟨hfinite, hpositive⟩ := Solid.validScale_iff.1 h
  exact ⟨hfinite, hpositive, rfl⟩

namespace Scene

/-- A scene of well-formed shapes, of which those selected and dragged exist. -/
structure WellFormed (scene : Scene) : Prop where
  shapes : ∀ s ∈ scene.shapes, s.WellFormed
  selected : ∀ i ∈ scene.selected, i < scene.shapes.length
  dragged : ∀ i ∈ scene.dragged, i < scene.shapes.length

/-! ### Scenes made anew -/

theorem wellFormed_ofShapes {shapes : List Shape} (h : ∀ s ∈ shapes, s.WellFormed) :
    (ofShapes shapes).WellFormed where
  shapes := h
  selected := by intro i hi; cases hi
  dragged := by intro i hi; cases hi

theorem wellFormed_empty : empty.WellFormed :=
  wellFormed_ofShapes fun _ h => absurd h List.not_mem_nil

theorem validScale_one : Solid.validScale 1.0 := by decide

theorem wellFormed_start : start.WellFormed := by
  refine wellFormed_ofShapes fun s hs => ?_
  rw [List.mem_singleton.1 hs]
  exact Shape.wellFormed_ofSolid .box validScale_one .zero

theorem wellFormed_ofSolids (solids : List Solid) : (ofSolids solids).WellFormed := by
  refine wellFormed_ofShapes fun s hs => ?_
  obtain ⟨solid, hsolid, rfl⟩ := List.mem_map.1 hs
  exact Shape.wellFormed_ofSolid solid.kind (List.mem_filter.1 hsolid).2 .zero

/-! ### Operations on a scene -/

section Operations

variable {scene next : Scene} {index : Nat}

theorem map_checkIndex_eq_ok {f : Unit → Scene} :
    (scene.checkIndex index).map f = .ok next ↔ index < scene.shapes.length ∧ f () = next := by
  unfold checkIndex
  split
  · next h => simp [Except.map, h]
  · next h => simp [Except.map, h]

theorem WellFormed.add (h : scene.WellFormed) (kind : Kind) : (scene.add kind).WellFormed := by
  have hlength : (scene.add kind).shapes.length = scene.shapes.length + 1 := by simp [Scene.add]
  constructor
  · intro s hs
    rcases List.mem_append.1 hs with hs | hs
    · exact h.shapes s hs
    · rw [List.mem_singleton.1 hs]
      exact Shape.wellFormed_ofSolid kind validScale_one _
  · intro i hi
    have := h.selected i hi
    omega
  · intro i hi
    have := h.dragged i hi
    omega

/-- What is well formed stays so when one shape is changed to a well-formed one. -/
theorem WellFormed.change (h : scene.WellFormed) (index : Nat) {f : Shape → Shape}
    (hf : ∀ s, s.WellFormed → (f s).WellFormed) : (scene.change index f).WellFormed := by
  have hlength : (scene.change index f).shapes.length = scene.shapes.length :=
    List.length_modify ..
  constructor
  · intro s hs
    obtain ⟨i, hi⟩ := List.mem_iff_getElem?.1 hs
    rw [Scene.change, List.getElem?_modify] at hi
    obtain ⟨t, ht, rfl⟩ := Option.map_eq_some_iff.1 hi
    have hwell := h.shapes t (List.mem_of_getElem? ht)
    split
    · exact hf t hwell
    · exact hwell
  · intro i hi
    rw [hlength]
    exact h.selected i hi
  · intro i hi
    rw [hlength]
    exact h.dragged i hi

theorem WellFormed.setScale (h : scene.WellFormed) {scale : Float}
    (hnext : scene.setScale index scale = .ok next) : next.WellFormed := by
  unfold Scene.setScale at hnext
  split at hnext
  · next hvalid =>
    obtain ⟨-, rfl⟩ := map_checkIndex_eq_ok.1 hnext
    obtain ⟨hfinite, hpositive⟩ := Solid.validScale_iff.1 hvalid
    exact h.change index fun s hs => ⟨hfinite, hpositive, hs.color⟩
  · cases hnext

theorem WellFormed.move (h : scene.WellFormed) (index : Nat) (position : Vec3) :
    (scene.change index ({ · with position })).WellFormed :=
  h.change index fun _ hs => ⟨hs.isFinite, hs.positive, hs.color⟩

theorem WellFormed.setPosition (h : scene.WellFormed) {position : Vec3}
    (hnext : scene.setPosition index position = .ok next) : next.WellFormed := by
  obtain ⟨-, rfl⟩ := map_checkIndex_eq_ok.1 hnext
  exact h.move index position

theorem WellFormed.select (h : scene.WellFormed) {choice : Option Nat}
    (hnext : scene.select choice = .ok next) : next.WellFormed := by
  cases choice with
  | none =>
    cases hnext
    refine ⟨h.shapes, fun i hi => ?_, h.dragged⟩
    cases hi
  | some index =>
    obtain ⟨hindex, rfl⟩ := map_checkIndex_eq_ok.1 hnext
    refine ⟨h.shapes, fun i hi => ?_, h.dragged⟩
    rw [← Option.some.inj hi]
    exact hindex

theorem WellFormed.beginDrag (h : scene.WellFormed) (hnext : scene.beginDrag index = .ok next) :
    next.WellFormed := by
  obtain ⟨hindex, rfl⟩ := map_checkIndex_eq_ok.1 hnext
  refine ⟨h.shapes, h.selected, fun i hi => ?_⟩
  rw [← Option.some.inj hi]
  exact hindex

theorem WellFormed.dragTo? (h : scene.WellFormed) {point : Vec3}
    (hnext : scene.dragTo? index point = some next) : next.WellFormed := by
  unfold Scene.dragTo? at hnext
  split at hnext
  · cases hnext
    exact h.move index _
  · cases hnext

theorem WellFormed.endDrag (h : scene.WellFormed) : scene.endDrag.WellFormed := by
  refine ⟨h.shapes, h.selected, fun i hi => ?_⟩
  cases hi

theorem WellFormed.selectedShape?_isSome_iff (h : scene.WellFormed) :
    scene.selectedShape?.isSome ↔ scene.selected.isSome := by
  unfold selectedShape?
  cases hselected : scene.selected with
  | none => simp
  | some i =>
    have hi := h.selected i hselected
    simp [hi]

end Operations

end Scene

/-! ### Sessions -/

namespace Workspace

theorem wellFormed_replyScene {w : Workspace} (h : w.scene.WellFormed)
    {result : Except SceneError Scene} (hresult : ∀ scene, result = .ok scene → scene.WellFormed) :
    (w.replyScene result).workspace.scene.WellFormed := by
  cases result with
  | ok scene => exact hresult scene rfl
  | error e => exact h

/-- A step keeps the scene well formed, whether it succeeds or fails. -/
theorem wellFormed_step {w : Workspace} (h : w.scene.WellFormed) (s : Step) :
    (w.step s).workspace.scene.WellFormed := by
  cases s with
  | add kind => exact h.add kind
  | setScale index scale => exact wellFormed_replyScene h fun _ => h.setScale
  | setPosition index position => exact wellFormed_replyScene h fun _ => h.setPosition
  | select index => exact wellFormed_replyScene h fun _ => h.select
  | beginDrag index => exact wellFormed_replyScene h fun _ => h.beginDrag
  | dragTo index point =>
    rw [Workspace.step]
    cases hmoved : w.scene.dragTo? index point with
    | some scene => exact h.dragTo? hmoved
    | none => exact h
  | endDrag => exact h.endDrag
  | replace solids => exact Scene.wellFormed_ofSolids solids
  | setParameters change => exact h
  | sync => exact h
  | edit text => exact Scene.wellFormed_ofSolids _
  | setText text => exact h
  | subscribe => exact h
  | unsubscribe handle => exact h

theorem wellFormed_run {w : Workspace} (h : w.scene.WellFormed) (steps : List Step) :
    (w.run steps).scene.WellFormed := by
  induction steps generalizing w with
  | nil => exact h
  | cons s rest ih => exact ih (wellFormed_step h s)

/-- **Every session keeps its scene well formed.**  Whatever is done, in whatever order, with or
without success, to a workspace that starts with no shape or with the default one: each scale is
finite and above zero, each colour is that of the kind, and the indices that are selected and
dragged are those of shapes, so that there is a selected shape whenever an index is selected. -/
theorem wellFormed_session {scene : Scene} (hstart : scene = .empty ∨ scene = .start)
    (parameters : Parameters) (steps : List Step) :
    let after := ((ofScene scene parameters).run steps).scene
    (∀ s ∈ after.shapes, s.scale.isFinite ∧ 0.0 < s.scale ∧ s.color = some s.kind.defaultColor) ∧
      (∀ i ∈ after.selected, i < after.shapes.length) ∧
      (∀ i ∈ after.dragged, i < after.shapes.length) ∧
      (after.selectedShape?.isSome ↔ after.selected.isSome) := by
  intro after
  have hscene : scene.WellFormed := by
    rcases hstart with rfl | rfl
    · exact Scene.wellFormed_empty
    · exact Scene.wellFormed_start
  have hafter : after.WellFormed := wellFormed_run (w := ofScene scene parameters) hscene steps
  refine ⟨fun s hs => ?_, hafter.selected, hafter.dragged, hafter.selectedShape?_isSome_iff⟩
  obtain ⟨hfinite, hpositive, hcolor⟩ := hafter.shapes s hs
  exact ⟨hfinite, hpositive, hcolor⟩

/-- A session that selects and drags the last of two shapes, fails to give the other a scale, and
then edits the script so that only one shape has a valid scale. -/
def shrinkingSession : List Step :=
  [.add .sphere, .select (some 1), .beginDrag 1, .setScale 0 (0.0 / 0.0), .sync,
    .edit "cube([0.00, 0.00, 0.00]); cube([2.00, 2.00, 2.00]);", .setScale 1 3.0]

theorem wellFormed_session_shrinking :
    let after := ((ofScene .start .default).run shrinkingSession).scene
    (Scene.start = .empty ∨ Scene.start = .start) ∧
      (∀ s ∈ after.shapes, s.scale.isFinite ∧ 0.0 < s.scale ∧ s.color = some s.kind.defaultColor) ∧
      (∀ i ∈ after.selected, i < after.shapes.length) ∧
      (∀ i ∈ after.dragged, i < after.shapes.length) ∧
      (after.selectedShape?.isSome ↔ after.selected.isSome) :=
  ⟨Or.inr rfl, wellFormed_session (Or.inr rfl) .default shrinkingSession⟩

end Workspace

end SolidScene
