import SolidScene.CommandLine.Command
import SolidScene.Proofs.CommandLine.Run
import SolidScene.Proofs.Document.Scene
import SolidScene.Proofs.Json.Number
import SolidScene.Proofs.Script.Occurrences

/-!
# Scene files that the program wrote itself

A script is parsed into a scene file, and the other commands then read that file.  What was written
is read back (`SceneFile.read?_text`), and a valid scale is read as a valid one, so a command
refuses such a file only for a scale that was invalid when it was taken from the script.  Reading
statement by statement leaves out the solids with such a scale (`Script.validScale_of_mem_read`);
the plain scan keeps them.  `exitCode_of_parse` says for each command when it succeeds.
-/

namespace SolidScene

open Disk (Tree)

/-! ### The scales of a script -/

namespace Script

theorem validScale_of_solid? {factor : Float} {kind : Kind} {arguments : List Argument} {s : Solid}
    (h : solid? factor kind arguments = some s) : Solid.validScale s.scale := by
  obtain ⟨length, -, h⟩ := Option.bind_eq_some_iff.1 h
  simp only at h
  split at h
  · next hvalid =>
    obtain rfl := Option.some.inj h
    exact hvalid
  · cases h

mutual

/-- No solid of a call has a scale that no shape may have. -/
theorem validScale_of_mem_solids (factor : Float) :
    ∀ (node : Node) {s : Solid}, s ∈ node.solids factor → Solid.validScale s.scale
  | .call name arguments children, s, h => by
    cases hname : kindOfCall? name with
    | some kind =>
      rw [solids_of_kindOfCall? hname, Option.mem_toList] at h
      exact validScale_of_solid? h
    | none =>
      have hmem := (solids_sublist_of_kindOfCall? hname arguments children).subset h
      exact validScale_of_mem_solidsOf factor children hmem

theorem validScale_of_mem_solidsOf (factor : Float) :
    ∀ (nodes : List Node) {s : Solid}, s ∈ solidsOf factor nodes → Solid.validScale s.scale
  | [], s, h => by cases h
  | node :: rest, s, h => by
    rcases List.mem_append.1 h with h | h
    · exact validScale_of_mem_solids factor node h
    · exact validScale_of_mem_solidsOf factor rest h

end

theorem validScale_of_mem_read {unit : LengthUnit} {text : String} {s : Solid}
    (h : s ∈ read unit text) : Solid.validScale s.scale := by
  rw [read, ← solidsOf_eq_flatMap] at h
  exact validScale_of_mem_solidsOf _ _ h

end Script

/-! ### Shapes read back -/

section Reread

theorem reread_zero : Json.reread 0.0 = some 0.0 := by decide

theorem reread_wallThickness :
    Json.reread Parameters.default.wallThickness = some Parameters.default.wallThickness := by
  decide

/-- A shape at the origin is read back with the scale that is read back. -/
theorem reread_atOrigin (s : Solid) :
    (Shape.atOrigin s).reread =
      (Json.reread s.scale).map fun scale => { Shape.atOrigin s with scale } := by
  have hposition : (Shape.atOrigin s).position.reread = some Vec3.zero := by
    change (do return ⟨← Json.reread 0.0, ← Json.reread 0.0, ← Json.reread 0.0⟩ : Option Vec3) = _
    rw [reread_zero]
    rfl
  rw [Shape.reread, hposition]
  change (Json.reread s.scale).bind _ = _
  cases Json.reread s.scale <;> rfl

/-- A valid scale is read back as a valid one, and any other as none or as an invalid one. -/
theorem validScale_of_reread {x y : Float} (h : Json.reread x = some y) :
    Solid.validScale y = Solid.validScale x := by
  cases hx : x.isFinite with
  | true =>
    obtain ⟨z, hz, hvalid⟩ := Json.toFloat?_ofFloat hx
    obtain rfl := Option.some.inj (hz.symm.trans h)
    exact hvalid
  | false =>
    rw [Json.reread, Json.toFloat?_ofFloat_of_not_finite hx] at h
    cases h

/-- Shapes at the origin are read back one by one, with valid scales if theirs are valid. -/
theorem mapM_reread_spec {solids : List Solid} {shapes : List Shape}
    (h : (solids.map .atOrigin).mapM Shape.reread = some shapes) :
    shapes.length = solids.length ∧
      ((∀ s ∈ shapes, Solid.validScale s.scale) ↔ ∀ s ∈ solids, Solid.validScale s.scale) := by
  induction solids generalizing shapes with
  | nil =>
    obtain rfl := Option.some.inj h
    exact ⟨rfl, by simp⟩
  | cons s solids ih =>
    rw [List.map_cons, List.mapM_cons, reread_atOrigin] at h
    obtain ⟨shape, hshape, h⟩ := Option.bind_eq_some_iff.1 h
    obtain ⟨rest, hrest, h⟩ := Option.bind_eq_some_iff.1 h
    obtain rfl := Option.some.inj h
    obtain ⟨scale, hscale, rfl⟩ := Option.map_eq_some_iff.1 hshape
    obtain ⟨hlength, hvalid⟩ := ih hrest
    refine ⟨congrArg (· + 1) hlength, ?_⟩
    rw [List.forall_mem_cons, List.forall_mem_cons, hvalid, ← validScale_of_reread hscale]

/-- Shapes at the origin with valid scales are read back. -/
theorem isSome_mapM_reread {solids : List Solid} (h : ∀ s ∈ solids, Solid.validScale s.scale) :
    ((solids.map .atOrigin).mapM Shape.reread).isSome := by
  induction solids with
  | nil => rfl
  | cons s solids ih =>
    obtain ⟨hs, hrest⟩ := List.forall_mem_cons.1 h
    obtain ⟨shapes, hshapes⟩ := Option.isSome_iff_exists.1 (ih hrest)
    obtain ⟨scale, hscale, -⟩ := Json.toFloat?_ofFloat (Double.validScale_iff.1 hs).1
    rw [List.map_cons, List.mapM_cons, reread_atOrigin, Json.reread, hscale, hshapes]
    rfl

end Reread

/-! ### Scene files -/

namespace CommandLine

open Command (firstInvalid? readScene sceneOfScript)

theorem firstInvalid?_eq_none_iff {shapes : List Shape} :
    firstInvalid? shapes = none ↔ ∀ s ∈ shapes, Solid.validScale s.scale := by
  rw [firstInvalid?, List.findSome?_eq_none_iff]
  constructor
  · intro h s hs
    obtain ⟨i, hi⟩ := List.mem_iff_getElem?.1 hs
    have hnone := h (s, 1 + i) (List.mk_add_mem_zipIdx_iff_getElem?.2 hi)
    by_contra hinvalid
    exact absurd hnone (by simp [hinvalid])
  · rintro h ⟨s, n⟩ hs
    exact if_pos (h s (List.fst_mem_of_mem_zipIdx hs))

/-- A scene file is accepted if it reads back and all the scales that are read are valid. -/
theorem readScene_text_eq_ok_iff {path : String} {file file' : SceneFile} :
    readScene path file.text = .ok file' ↔
      file.reread = some file' ∧ ∀ s ∈ file'.shapes, Solid.validScale s.scale := by
  rw [readScene, SceneFile.read?_text, ← firstInvalid?_eq_none_iff]
  cases file.reread with
  | none => simp
  | some read =>
    cases hinvalid : firstInvalid? read.shapes with
    | none =>
      simp only [hinvalid, Except.ok.injEq, Option.some.injEq]
      exact ⟨fun h => ⟨h, h ▸ hinvalid⟩, And.left⟩
    | some found =>
      obtain ⟨number, scale⟩ := found
      simp only [hinvalid, reduceCtorEq, Option.some.injEq, false_iff, not_and]
      rintro rfl hnone
      rw [hinvalid] at hnone
      cases hnone

theorem reread_eq_some_iff {p : Parameters} (hp : p.reread = some p) {shapes : List Shape}
    {file : SceneFile} :
    SceneFile.reread ⟨p, shapes⟩ = some file ↔
      ∃ read, shapes.mapM Shape.reread = some read ∧ file = ⟨p, read⟩ := by
  rw [SceneFile.reread, hp]
  change (shapes.mapM Shape.reread).bind _ = _ ↔ _
  rw [Option.bind_eq_some_iff]
  exact exists_congr fun read => and_congr_right fun _ => by
    rw [Option.pure_def, Option.some_inj, eq_comm]

/-- The scene file of shapes at the origin is accepted if all of its scales are valid. -/
theorem exists_readScene_iff (path : String) {p : Parameters} (hp : p.reread = some p)
    (solids : List Solid) :
    (∃ file, readScene path (SceneFile.text ⟨p, solids.map .atOrigin⟩) = .ok file) ↔
      ∀ s ∈ solids, Solid.validScale s.scale := by
  simp only [readScene_text_eq_ok_iff, reread_eq_some_iff hp]
  constructor
  · rintro ⟨file, ⟨shapes, hshapes, rfl⟩, hvalid⟩
    exact (mapM_reread_spec hshapes).2.1 hvalid
  · intro hvalid
    obtain ⟨shapes, hshapes⟩ := Option.isSome_iff_exists.1 (isSome_mapM_reread hvalid)
    exact ⟨_, ⟨shapes, hshapes, rfl⟩, (mapM_reread_spec hshapes).2.2 hvalid⟩

/-- The scene that is accepted has as many shapes as the one that was written. -/
theorem length_of_readScene {path : String} {p : Parameters} (hp : p.reread = some p)
    {solids : List Solid} {file : SceneFile}
    (h : readScene path (SceneFile.text ⟨p, solids.map .atOrigin⟩) = .ok file) :
    file.shapes.length = solids.length := by
  obtain ⟨hreread, -⟩ := readScene_text_eq_ok_iff.1 h
  obtain ⟨shapes, hshapes, rfl⟩ := (reread_eq_some_iff hp).1 hreread
  exact (mapM_reread_spec hshapes).1

/-! ### Commands on a scene file -/

section Scene

variable {t : Tree} {f text : String}

/-- A command that prints something of a scene succeeds on each scene that is accepted. -/
theorem exitCode_iff_of_evaluate_eq {command : Command} {shown : SceneFile → String}
    (h : t.text? command.file = some text)
    (hprint : command.evaluate text = (readScene f text).map fun file => .print (shown file)) :
    (command.runOn t).1.exitCode = 0 ↔ ∃ file, readScene f text = .ok file := by
  rw [runOn_eq h, hprint]
  cases readScene f text with
  | error problem => exact iff_of_false Nat.one_ne_zero (by simp)
  | ok file => exact iff_of_true rfl ⟨file, rfl⟩

theorem exitCode_generate_iff (h : t.text? f = some text) (change : ParameterChange) :
    ((Command.generate f none change).runOn t).1.exitCode = 0 ↔
      ∃ file, readScene f text = .ok file :=
  have hfile : t.text? (Command.generate f none change).file = some text := h
  exitCode_iff_of_evaluate_eq hfile rfl

theorem exitCode_inspect_iff (h : t.text? f = some text) :
    ((Command.inspect f none).runOn t).1.exitCode = 0 ↔ ∃ file, readScene f text = .ok file :=
  have hfile : t.text? (Command.inspect f none).file = some text := h
  exitCode_iff_of_evaluate_eq hfile rfl

theorem exitCode_exportStl_iff (h : t.text? f = some text) (out : String) (format : Stl.Format)
    (segments : UInt32) :
    ((Command.exportStl f out format segments).runOn t).1.exitCode = 0 ↔
      ∃ file, readScene f text = .ok file ∧ file.shapes ≠ [] ∧ t.CanSave out := by
  cases hread : readScene f text with
  | error problem =>
    rw [runOn_eq h, Command.evaluate, hread]
    exact iff_of_false Nat.one_ne_zero (by simp)
  | ok file =>
    have hevaluate : (Command.exportStl f out format segments).evaluate text =
        if file.shapes.isEmpty then .error (.noShapes f) else
          .ok (.save .stl out (Stl.exportShapes format segments file.shapes).toByteArray) := by
      rw [Command.evaluate, hread]
      cases hempty : file.shapes.isEmpty with
      | true => simp [hempty, bind, Except.bind, throw, throwThe, MonadExceptOf.throw]
      | false => simp [hempty, bind, Except.bind, pure, Except.pure]
    rw [runOn_eq h, hevaluate]
    by_cases hempty : file.shapes = []
    · rw [if_pos (List.isEmpty_iff.2 hempty)]
      exact iff_of_false Nat.one_ne_zero (by simp [hempty])
    · rw [if_neg (mt List.isEmpty_iff.1 hempty), exitCode_deliverOn_save]
      simp [hempty]

end Scene

/-! ### Commands on a file that was parsed -/

section Parsed

variable {t t' : Tree} {script f text : String} {structured : Bool} {unit : LengthUnit}
  {o : Outcome}

/-- Whether each solid that is taken from a script has a valid scale: always if the script is read
statement by statement, since that leaves out the others. -/
def TakesValidScales (structured : Bool) (text : String) : Prop :=
  structured ∨ ∀ s ∈ Script.scan text, Solid.validScale s.scale

/-- The file that a script was parsed into holds the text of its scene. -/
theorem text?_of_parse (h : (Command.parse script (some f) structured unit).runOn t = (o, t'))
    (hexit : o.exitCode = 0) :
    ∃ text, t.text? script = some text ∧
      t'.text? f = some (sceneOfScript structured unit text).text := by
  have hexit' : ((Command.parse script (some f) structured unit).runOn t).1.exitCode = 0 := by
    rw [h]
    exact hexit
  obtain ⟨text, htext⟩ := exists_text?_of_exitCode hexit'
  rw [runOn_eq htext] at h
  exact ⟨text, htext, text?_of_deliverOn_save h hexit⟩

/-- The parameters that go with a script are read back. -/
theorem reread_parameters (structured : Bool) (unit : LengthUnit) (text : String) :
    (sceneOfScript structured unit text).parameters.reread =
      some (sceneOfScript structured unit text).parameters := by
  rw [sceneOfScript, Parameters.reread]
  simp only [reread_wallThickness]
  rfl

/-- The scene of a script is accepted if its scales are valid. -/
theorem exists_readScene_sceneOfScript_iff (path : String) (structured : Bool) (unit : LengthUnit)
    (text : String) :
    (∃ file, readScene path (sceneOfScript structured unit text).text = .ok file) ↔
      TakesValidScales structured text := by
  refine (exists_readScene_iff path (reread_parameters structured unit text) _).trans ?_
  cases structured with
  | false => simp [TakesValidScales]
  | true =>
    exact iff_of_true (fun s hs => Script.validScale_of_mem_read hs) (.inl rfl)

theorem shapes_ne_nil_iff_of_readScene {path : String} {file : SceneFile}
    (h : readScene path (sceneOfScript structured unit text).text = .ok file) :
    file.shapes ≠ [] ↔ (sceneOfScript structured unit text).shapes ≠ [] := by
  have hlength := length_of_readScene (reread_parameters structured unit text) h
  rw [← List.length_pos_iff, ← List.length_pos_iff, hlength, sceneOfScript, List.length_map]

/-- **The other commands on a file that a script was parsed into** succeed if and only if each solid
that was taken from the script has a valid scale; a mesh is written if there is a shape besides, and
if the place for it can be written to. -/
theorem exitCode_of_parse
    (h : (Command.parse script (some f) structured unit).runOn t = (o, t'))
    (hexit : o.exitCode = 0) :
    ∃ text, t.text? script = some text ∧
      t'.text? f = some (sceneOfScript structured unit text).text ∧
      (∀ change, ((Command.generate f none change).runOn t').1.exitCode = 0 ↔
        TakesValidScales structured text) ∧
      (((Command.inspect f none).runOn t').1.exitCode = 0 ↔ TakesValidScales structured text) ∧
      ∀ out format segments,
        ((Command.exportStl f out format segments).runOn t').1.exitCode = 0 ↔
          TakesValidScales structured text ∧ (sceneOfScript structured unit text).shapes ≠ [] ∧
            t'.CanSave out := by
  obtain ⟨text, htext, hfile⟩ := text?_of_parse h hexit
  have haccepted := exists_readScene_sceneOfScript_iff f structured unit text
  refine ⟨text, htext, hfile, fun change => ?_, ?_, fun out format segments => ?_⟩
  · rw [exitCode_generate_iff hfile, haccepted]
  · rw [exitCode_inspect_iff hfile, haccepted]
  · rw [exitCode_exportStl_iff hfile, ← haccepted]
    constructor
    · rintro ⟨file, hread, hshapes, hsave⟩
      exact ⟨⟨file, hread⟩, (shapes_ne_nil_iff_of_readScene hread).1 hshapes, hsave⟩
    · rintro ⟨⟨file, hread⟩, hshapes, hsave⟩
      exact ⟨file, hread, (shapes_ne_nil_iff_of_readScene hread).2 hshapes, hsave⟩

/-- A box of no extent. -/
def flatScript : String := "cube([0.00, 0.00, 0.00]);"

/-- A disk with nothing on it but that script. -/
def flatDisk : Tree := Tree.empty.put ["flat.scad"] (.file flatScript.toUTF8)

/-- What parsing that script shows, and the disk after it. -/
def flatRun : Outcome × Tree :=
  (Command.parse "flat.scad" (some "flat.json") false .millimeters).runOn flatDisk

theorem exitCode_of_parse_flatRun :
    flatRun.1.exitCode = 0 ∧
      ∃ text, flatDisk.text? "flat.scad" = some text ∧
        (((Command.inspect "flat.json" none).runOn flatRun.2).1.exitCode = 0 ↔
          TakesValidScales false text) :=
  have hrun : (Command.parse "flat.scad" (some "flat.json") false .millimeters).runOn flatDisk =
      (flatRun.1, flatRun.2) := rfl
  have hexit : flatRun.1.exitCode = 0 := by decide +kernel
  have ⟨text, htext, _, _, hinspect, _⟩ := exitCode_of_parse hrun hexit
  ⟨hexit, text, htext, hinspect⟩

/-- A file that the program wrote is not always one that it accepts. -/
theorem not_accepts_parsed :
    ¬ ∀ (t t' : Tree) (script f : String) (structured : Bool) (unit : LengthUnit) (o : Outcome),
      (Command.parse script (some f) structured unit).runOn t = (o, t') → o.exitCode = 0 →
        ((Command.generate f none {}).runOn t').1.exitCode = 0 ∧
          ((Command.inspect f none).runOn t').1.exitCode = 0 ∧
          ∀ text file out format segments, t'.text? f = some text →
            SceneFile.read? text = some file → file.shapes ≠ [] → t'.CanSave out →
              ((Command.exportStl f out format segments).runOn t').1.exitCode = 0 := by
  intro h
  have hrun : (Command.parse "flat.scad" (some "flat.json") false .millimeters).runOn flatDisk =
      (flatRun.1, flatRun.2) := rfl
  have hexit : flatRun.1.exitCode = 0 := by decide +kernel
  obtain ⟨hgenerate, -, -⟩ := h _ _ _ _ _ _ _ hrun hexit
  obtain ⟨text, htext, hfile⟩ := text?_of_parse hrun hexit
  have hscript : flatDisk.text? "flat.scad" = some flatScript := Tree.fromUTF8?_toUTF8 flatScript
  obtain rfl := Option.some.inj (hscript.symm.trans htext)
  rw [exitCode_generate_iff hfile, exists_readScene_sceneOfScript_iff, TakesValidScales,
    Bool.false_eq_true, false_or] at hgenerate
  exact absurd hgenerate (by decide +kernel)

end Parsed

end CommandLine

end SolidScene
