import SolidScene.Proofs.CommandLine.OwnFiles
import SolidScene.Proofs.Json.Accuracy
import SolidScene.Proofs.Workspace.Losses

/-!
# Scripts that are parsed and generated again

A scene is written as a script of bare solids, the script is parsed into a scene file, and that file
is written as a script again.  The scan finds one length of each solid, in hundredths and as it
stands, and leaves the height of a cylinder aside.  On its way through the scale, through the scene
file and back a length takes at most eight roundings, too few to show (`solidStatement_reread`).  So
the second script is made of the same solids in reading order; but lengths have been multiplied by
the unit once more, and each cylinder is three times as high as its written radius
(`Trip.regenerated_eq`).
-/

namespace SolidScene

open Script Double
open Disk (Tree)

/-! ### Calls in hundredths -/

namespace Script

/-- The call of a solid whose edge or radius is some hundredths long; the height is that of a
cylinder. -/
def callOfHundredths (kind : Kind) (length height : Int) : Statement :=
  match kind with
  | .box =>
    .call "cube"
      [⟨none, .vector [.ofHundredths length, .ofHundredths length, .ofHundredths length]⟩]
  | .sphere => .call "sphere" [named "r" (.ofHundredths length)]
  | .cylinder =>
    .call "cylinder" [named "r" (.ofHundredths length), named "h" (.ofHundredths height)]

/-- The height of a cylinder of the scale of a solid. -/
def heightOf (factor : Float) (s : Solid) : Float := cylinderHeightFactor * s.scale * factor

/-- The script of bare solids. -/
theorem write_of_solid {p : Parameters} (hstyle : p.style = .solid) (solids : List Solid) :
    write p solids = String.ofList (render (solids.map (solidStatement p.unit.factor))) := by
  have hstatement : statement p = solidStatement p.unit.factor := by
    funext s
    rw [statement, hstyle]
  rw [write, hstatement]

theorem solidStatement_eq (factor : Float) (s : Solid) :
    solidStatement factor s = callOfHundredths s.kind (hundredths (leadingLength factor s))
      (hundredths (heightOf factor s)) := by
  obtain ⟨kind, scale⟩ := s
  cases kind <;> rfl

end Script

/-! ### A length on its way through the scene file -/

section Lengths

variable {n h : ℕ} {x : Float} {unit : LengthUnit}

/-- A multiple of a length in hundredths is written with that multiple of the hundredths, and of the
unit. -/
theorem hundredths_of_isNear {multiple : ℕ}
    (hx : IsNear n x (multiple * (h / 100) * value unit.factor)) (hn : n ≤ mostRoundings)
    (hle : multiple * (unit.multiple * h) ≤ mostHundredths) :
    hundredths x = multiple * (unit.multiple * h) := by
  have hvalue : multiple * ((h : ℚ) / 100) * value unit.factor =
      ((multiple * (unit.multiple * h) : ℕ) : ℚ) / 100 := by
    rw [value_unit]
    push_cast
    ring
  rw [hvalue] at hx
  exact_mod_cast hx.hundredths_eq hn hle

/-- **A bare call after parsing and reading the scene file**: the length that was scanned is written
with the unit once more, and a cylinder three times as high as that. -/
theorem solidStatement_reread (unit : LengthUnit) (kind : Kind) (hpos : 1 ≤ h)
    (hle : 3 * (unit.multiple * h) ≤ mostHundredths) :
    ∃ y, Json.reread (scannedScale kind h) = some y ∧ Solid.validScale y ∧
      solidStatement unit.factor ⟨kind, y⟩ =
        callOfHundredths kind (unit.multiple * h) (3 * (unit.multiple * h)) := by
  have hk : 1 ≤ unit.multiple := by cases unit <;> decide
  have hscanned : h ≤ mostHundredths := by nlinarith
  obtain ⟨y, hy, hnear⟩ :=
    Json.isNear_reread (isNear_scannedScale kind hpos hscanned) (by decide)
  refine ⟨y, hy, hnear.validScale (by decide), ?_⟩
  have hlength : hundredths (leadingLength unit.factor ⟨kind, y⟩) = unit.multiple * h := by
    have hproduct := isNear_leadingLength unit kind hnear (by decide)
    rw [div_mul_cancel₀ _ (lengthFactor_pos kind).ne', ← one_mul ((h : ℚ) / 100), ← Nat.cast_one]
      at hproduct
    simpa using hundredths_of_isNear hproduct (by decide) (by omega)
  rw [solidStatement_eq, hlength]
  cases kind with
  | box => rfl
  | sphere => rfl
  | cylinder =>
    -- The height is three times the radius, both being fixed multiples of the scale.
    have hratio : h / 100 / lengthFactor .cylinder * value cylinderHeightFactor =
        (3 : ℕ) * (h / 100) := by
      rw [lengthFactor, value_cylinderRadiusFactor, value_cylinderHeightFactor]
      push_cast
      ring
    have hproduct := (hnear.factor_mul isFactor_cylinderHeightFactor (by decide)).mul
      (isFactor_unit unit) (by decide)
    rw [hratio] at hproduct
    have hheight : hundredths (heightOf unit.factor ⟨.cylinder, y⟩) = _ :=
      hundredths_of_isNear hproduct (by decide) hle
    rw [hheight]
    rfl

end Lengths

/-! ### Scales of ordinary size -/

/-- The length of a solid with a scale of ordinary size is written as one hundredth at least, and
with so few that three times as many, in the largest unit, are told apart. -/
theorem exists_hundredths (unit : LengthUnit) {s : Solid} (hvalid : Solid.validScale s.scale)
    (hleast : 0.01 ≤ s.scale) (hmost : s.scale ≤ 100000.0) :
    ∃ h : ℕ, hundredths (leadingLength unit.factor s) = h ∧ 1 ≤ h ∧
      3 * (unit.multiple * h) ≤ mostHundredths := by
  have hscale := isBounded_of_le_hundredThousand hvalid hmost
  have hlength := isBounded_leadingLength unit hscale (by decide)
  obtain ⟨h, hh⟩ := Int.eq_ofNat_of_zero_le hlength.hundredths_nonneg
  have hone := one_le_hundredths_leadingLength unit (hscale.mono (by decide)) hleast
  have hle := hlength.hundredths_le
  have hmultiple : unit.multiple ≤ 1000 := by cases unit <;> decide
  rw [hh] at hone hle
  refine ⟨h, hh, by omega, ?_⟩
  have hh' : h ≤ 100 * 2 ^ 27 := by omega
  calc 3 * (unit.multiple * h) ≤ 3 * (1000 * (100 * 2 ^ 27)) := by gcongr
    _ ≤ mostHundredths := by decide

/-! ### What the second script is made of -/

/-- The call of what was scanned, written in the same unit as the call that it was scanned from. -/
def rescannedCall (unit : LengthUnit) (s : Solid) : Statement :=
  let length := unit.multiple * hundredths (leadingLength unit.factor s)
  callOfHundredths s.kind length (3 * length)

section Lists

variable {p : Parameters} {solids : List Solid}

/-- A solid with a scale of ordinary size is scanned, read back and written. -/
theorem exists_reread_rescanned (unit : LengthUnit) {s : Solid}
    (hvalid : Solid.validScale s.scale) (hleast : 0.01 ≤ s.scale) (hmost : s.scale ≤ 100000.0) :
    ∃ y, Json.reread (rescanned unit s).scale = some y ∧ Solid.validScale y ∧
      solidStatement unit.factor ⟨s.kind, y⟩ = rescannedCall unit s := by
  obtain ⟨h, hh, hpos, hle⟩ := exists_hundredths unit hvalid hleast hmost
  simp only [rescanned, rescannedCall, hh, readBack_eq hh]
  exact solidStatement_reread unit s.kind hpos hle

/-- Solids with scales of ordinary size are scanned, read back and written one by one. -/
theorem exists_mapM_reread_rescanned (unit : LengthUnit)
    (hvalid : ∀ s ∈ solids, Solid.validScale s.scale)
    (hscale : ∀ s ∈ solids, 0.01 ≤ s.scale ∧ s.scale ≤ 100000.0) :
    ∃ shapes, ((solids.map (rescanned unit)).map .atOrigin).mapM Shape.reread = some shapes ∧
      (∀ s ∈ shapes, Solid.validScale s.scale) ∧
      shapes.map (fun s => solidStatement unit.factor s.toSolid) =
        solids.map (rescannedCall unit) := by
  induction solids with
  | nil => exact ⟨[], rfl, nofun, rfl⟩
  | cons s rest ih =>
    obtain ⟨hs, hrest⟩ := List.forall_mem_cons.1 hvalid
    obtain ⟨⟨hleast, hmost⟩, hscales⟩ := List.forall_mem_cons.1 hscale
    obtain ⟨y, hy, hvalidY, hcall⟩ := exists_reread_rescanned unit hs hleast hmost
    obtain ⟨shapes, hshapes, hall, hmap⟩ := ih hrest hscales
    refine ⟨{ Shape.atOrigin (rescanned unit s) with scale := y } :: shapes, ?_,
      List.forall_mem_cons.2 ⟨hvalidY, hall⟩, ?_⟩
    · rw [List.map_cons, List.map_cons, List.mapM_cons, reread_atOrigin, hy, hshapes]
      rfl
    · rw [List.map_cons, List.map_cons, hmap, ← hcall]
      rfl

end Lists

/-! ### Three commands -/

namespace CommandLine

open Command (readScene sceneOfScript)

/-- The scales of a scene that is read are valid. -/
theorem validScale_of_readScene {path text : String} {file : SceneFile}
    (h : readScene path text = .ok file) : ∀ s ∈ file.shapes, Solid.validScale s.scale := by
  rw [readScene] at h
  split at h
  · cases h
  · split at h
    · cases h
    · next hnone =>
      cases h
      exact firstInvalid?_eq_none_iff.1 hnone

/-- A scene file that is written as a script, which is parsed in the unit that it was written in. -/
structure Trip where
  disk : Tree
  scene : String
  script : String
  parsed : String
  change : ParameterChange
  file : SceneFile

namespace Trip

variable (trip : Trip)

/-- What the script is written with. -/
def parameters : Parameters := trip.change.apply trip.file.parameters

/-- The solids of the scene. -/
def solids : List Solid := trip.file.shapes.map Shape.toSolid

/-- The command that writes the script. -/
def written : Outcome × Tree :=
  (Command.generate trip.scene (some trip.script) trip.change).runOn trip.disk

/-- The command that parses the script. -/
def reparsed : Outcome × Tree :=
  (Command.parse trip.script (some trip.parsed) false trip.parameters.unit).runOn trip.written.2

/-- The command that prints the script of what was parsed, with the parameters found there. -/
def regenerated : Outcome := ((Command.generate trip.parsed none {}).runOn trip.reparsed.2).1

/-- The scene that is written is the one that the scene file holds. -/
def ReadsScene : Prop :=
  ∃ text, trip.disk.text? trip.scene = some text ∧ readScene trip.scene text = .ok trip.file

/-- The scene is read and both files are written. -/
structure Succeeds : Prop where
  reads : trip.ReadsScene
  written : trip.written.1.exitCode = 0
  reparsed : trip.reparsed.1.exitCode = 0

variable {trip}

theorem written_eq (h : trip.ReadsScene) : trip.written =
    deliverOn (.save .script trip.script (write trip.parameters trip.solids).toUTF8) trip.disk := by
  obtain ⟨text, htext, hread⟩ := h
  have hevaluate : (Command.generate trip.scene (some trip.script) trip.change).evaluate text =
      .ok (.save .script trip.script (write trip.parameters trip.solids).toUTF8) := by
    rw [Command.evaluate, hread]
    rfl
  rw [Trip.written, runOn_eq htext, hevaluate]

theorem text?_written (h : trip.ReadsScene) (hexit : trip.written.1.exitCode = 0) :
    trip.written.2.text? trip.script = some (write trip.parameters trip.solids) :=
  text?_of_deliverOn_save (written_eq h).symm hexit

/-- A trip succeeds if both files can be saved. -/
theorem succeeds_of_canSave (h : trip.ReadsScene) (hscript : trip.disk.CanSave trip.script)
    (hparsed : trip.written.2.CanSave trip.parsed) : trip.Succeeds := by
  have hwritten : trip.written.1.exitCode = 0 := by
    rw [written_eq h, exitCode_deliverOn_save]
    exact hscript
  refine ⟨h, hwritten, ?_⟩
  rw [reparsed, runOn_eq (text?_written h hwritten)]
  exact (exitCode_deliverOn_save .scene trip.parsed _ _).2 hparsed

theorem Succeeds.text?_reparsed (h : trip.Succeeds) :
    trip.reparsed.2.text? trip.parsed = some (sceneOfScript false trip.parameters.unit
      (write trip.parameters trip.solids)).text := by
  obtain ⟨text, htext, hparsed⟩ := text?_of_parse rfl h.reparsed
  rw [text?_written h.reads h.written] at htext
  obtain rfl := Option.some.inj htext
  exact hparsed

theorem Succeeds.validScale (h : trip.Succeeds) :
    ∀ s ∈ trip.solids, Solid.validScale s.scale := by
  obtain ⟨text, -, hread⟩ := h.reads
  intro s hs
  obtain ⟨shape, hshape, rfl⟩ := List.mem_map.1 hs
  exact validScale_of_readScene hread shape hshape

/-- What is printed in the end is the script of what was scanned, with the scales read back. -/
theorem Succeeds.regenerated_eq_write (h : trip.Succeeds) {shapes : List Shape}
    (hshapes : ((scan (write trip.parameters trip.solids)).map .atOrigin).mapM Shape.reread =
      some shapes)
    (hvalid : ∀ s ∈ shapes, Solid.validScale s.scale) :
    trip.regenerated = .success (write { Parameters.default with unit := trip.parameters.unit }
      (shapes.map Shape.toSolid) ++ "\n") := by
  have hparameters := reread_parameters false trip.parameters.unit
    (write trip.parameters trip.solids)
  have hread : readScene trip.parsed (sceneOfScript false trip.parameters.unit
      (write trip.parameters trip.solids)).text = .ok
        ⟨{ Parameters.default with unit := trip.parameters.unit }, shapes⟩ :=
    readScene_text_eq_ok_iff.2
      ⟨(reread_eq_some_iff hparameters).2 ⟨shapes, hshapes, rfl⟩, hvalid⟩
  have hevaluate : (Command.generate trip.parsed none {}).evaluate (sceneOfScript false
      trip.parameters.unit (write trip.parameters trip.solids)).text =
        .ok (.print (write { Parameters.default with unit := trip.parameters.unit }
          (shapes.map Shape.toSolid))) := by
    rw [Command.evaluate, hread]
    rfl
  rw [Trip.regenerated, runOn_eq h.text?_reparsed, hevaluate]
  rfl

/-! ### Trips of a few solids -/

/-- A disk with one file on it. -/
def diskWith (content : ByteArray) : Tree := Tree.empty.put ["scene"] (.file content)

theorem text?_diskWith (text : String) : (diskWith text.toUTF8).text? "scene" = some text := by
  have hread : (diskWith text.toUTF8).read? "scene" = some text.toUTF8 := rfl
  rw [Tree.text?, hread, Option.bind_some, Tree.fromUTF8?_toUTF8]

theorem deliverOn_diskWith (script content : ByteArray) :
    deliverOn (.save .script "script" script) (diskWith content) =
      (.success "", (diskWith content).put ["script"] (.file script)) := rfl

theorem canSave_diskWith (content : ByteArray) : (diskWith content).CanSave "script" :=
  ⟨.empty, rfl⟩

theorem canSave_put_diskWith (script content : ByteArray) :
    ((diskWith content).put ["script"] (.file script)).CanSave "parsed" :=
  ⟨.empty, rfl⟩

/-- The trip of a scene of some solids in some unit, on a disk with nothing else on it. -/
def ofSolids (unit : LengthUnit) (solids : List Solid) : Trip :=
  let file : SceneFile := ⟨{ Parameters.default with unit }, solids.map .atOrigin⟩
  ⟨diskWith file.text.toUTF8, "scene", "script", "parsed", {}, file⟩

section OfSolids

variable {unit : LengthUnit} {solids : List Solid}

theorem readsScene_ofSolids
    (h : ∀ s ∈ solids, Json.reread s.scale = some s.scale ∧ Solid.validScale s.scale) :
    (ofSolids unit solids).ReadsScene := by
  have hparameters : ({ Parameters.default with unit } : Parameters).reread =
      some { Parameters.default with unit } := reread_parameters false unit ""
  have hshapes : (solids.map .atOrigin).mapM Shape.reread = some (solids.map .atOrigin) := by
    induction solids with
    | nil => rfl
    | cons s rest ih =>
      obtain ⟨⟨hs, -⟩, hrest⟩ := List.forall_mem_cons.1 h
      rw [List.map_cons, List.mapM_cons, reread_atOrigin, hs, ih hrest]
      rfl
  refine ⟨_, text?_diskWith _, readScene_text_eq_ok_iff.2
    ⟨(reread_eq_some_iff hparameters).2 ⟨_, hshapes, rfl⟩, fun s hs => ?_⟩⟩
  obtain ⟨t, ht, rfl⟩ := List.mem_map.1 hs
  exact (h t ht).2

theorem succeeds_ofSolids
    (h : ∀ s ∈ solids, Json.reread s.scale = some s.scale ∧ Solid.validScale s.scale) :
    (ofSolids unit solids).Succeeds := by
  have hreads : (ofSolids unit solids).ReadsScene := readsScene_ofSolids h
  have hwritten := (written_eq hreads).trans (deliverOn_diskWith _ _)
  refine succeeds_of_canSave hreads (canSave_diskWith _) ?_
  rw [hwritten]
  exact canSave_put_diskWith _ _

theorem solids_ofSolids : (ofSolids unit solids).solids = solids := by
  rw [Trip.solids, ofSolids, List.map_map]
  exact List.map_id solids

end OfSolids

/-! ### What comes back -/

/-- What is printed in the end, when bare solids are written without a minus. -/
theorem Succeeds.regenerated_eq_render (h : trip.Succeeds)
    (hstyle : trip.parameters.style = .solid)
    (hplain : ∀ s ∈ trip.solids, ∀ x ∈ shownLengths trip.parameters.unit.factor s,
      0 ≤ hundredths x) {shapes : List Shape}
    (hshapes : (((inReadingOrder .solid trip.solids).map (rescanned trip.parameters.unit)).map
      .atOrigin).mapM Shape.reread = some shapes)
    (hvalid : ∀ s ∈ shapes, Solid.validScale s.scale) :
    trip.regenerated = .success (String.ofList (render (shapes.map fun s =>
      solidStatement trip.parameters.unit.factor s.toSolid)) ++ "\n") := by
  rw [← scan_write_eq_map hstyle hplain] at hshapes
  rw [h.regenerated_eq_write hshapes hvalid, write_of_solid rfl, List.map_map]
  rfl

variable (trip) in
/-- A trip that succeeds, with bare solids of ordinary size. -/
structure IsOrdinary : Prop where
  succeeds : trip.Succeeds
  solid : trip.parameters.style = .solid
  scale : ∀ s ∈ trip.solids, 0.01 ≤ s.scale ∧ s.scale ≤ 100000.0

/-- **A script that is parsed in its own unit and generated again** shows the same solids in reading
order, boxes before spheres before cylinders and else as they stood.  Each edge and each radius is
multiplied by the unit once more, since the scan takes lengths as they stand, and each height is
three times the radius.  So in millimetres, with scales from a hundredth up to a hundred thousand,
only the heights of cylinders can have changed. -/
theorem regenerated_eq (h : trip.IsOrdinary) :
    let unit := trip.parameters.unit
    let length (s : Solid) := hundredths (leadingLength unit.factor s)
    let height (s : Solid) := hundredths (heightOf unit.factor s)
    trip.written.2.text? trip.script = some (String.ofList (render (trip.solids.map fun s =>
      callOfHundredths s.kind (length s) (height s)))) ∧
    trip.regenerated = .success (String.ofList (render ((inReadingOrder .solid trip.solids).map
      fun s => callOfHundredths s.kind (unit.multiple * length s)
        (3 * (unit.multiple * length s)))) ++ "\n") := by
  intro unit length height
  have hvalid := h.succeeds.validScale
  constructor
  · rw [text?_written h.succeeds.reads h.succeeds.written, write_of_solid h.solid]
    exact congrArg (fun statements => some (String.ofList (render statements)))
      (List.map_congr_left fun s _ => solidStatement_eq unit.factor s)
  · have hplain : ∀ s ∈ trip.solids, ∀ x ∈ shownLengths unit.factor s, 0 ≤ hundredths x := by
      intro s hs
      have hbounded := isBounded_of_le_hundredThousand (hvalid s hs) (h.scale s hs).2
      exact SolidScene.IsOrdinary.hundredths_nonneg ⟨hvalid s hs, hbounded.mono (by decide)⟩ _
    obtain ⟨shapes, hshapes, hvalidShapes, hcalls⟩ := exists_mapM_reread_rescanned unit
      (fun s hs => hvalid s (mem_inReadingOrder.1 hs))
      (fun s hs => h.scale s (mem_inReadingOrder.1 hs))
    rw [h.succeeds.regenerated_eq_render h.solid hplain hshapes hvalidShapes, hcalls]
    rfl

theorem isOrdinary_ofSolids {unit : LengthUnit} {solids : List Solid}
    (h : ∀ s ∈ solids, Json.reread s.scale = some s.scale ∧ Solid.validScale s.scale)
    (hscale : ∀ s ∈ solids, 0.01 ≤ s.scale ∧ s.scale ≤ 100000.0) :
    (ofSolids unit solids).IsOrdinary :=
  ⟨succeeds_ofSolids h, rfl, solids_ofSolids.symm ▸ hscale⟩

/-- Solids of every kind, out of reading order, in a unit of more than one millimetre. -/
def ofAssortment : Trip :=
  ofSolids .centimeters [⟨.cylinder, 0.125⟩, ⟨.box, 2.0⟩, ⟨.sphere, 1.5⟩, ⟨.box, 0.5⟩]

theorem isOrdinary_ofAssortment : ofAssortment.IsOrdinary :=
  isOrdinary_ofSolids (by decide) (by decide)

/-- The boxes come first, every length is multiplied by ten once more, and the cylinder comes back
with another height than ten times its own. -/
theorem regenerated_eq_ofAssortment :
    ofAssortment.IsOrdinary ∧
    ofAssortment.written.2.text? "script" = some (String.ofList (render
      [callOfHundredths .cylinder 62 188, callOfHundredths .box 2000 3000,
        callOfHundredths .sphere 1050 2250, callOfHundredths .box 500 750])) ∧
    ofAssortment.regenerated = .success (String.ofList (render
      [callOfHundredths .box 20000 60000, callOfHundredths .box 5000 15000,
        callOfHundredths .sphere 10500 31500, callOfHundredths .cylinder 620 1860]) ++ "\n") := by
  obtain ⟨hwritten, hregenerated⟩ := regenerated_eq isOrdinary_ofAssortment
  have hunit : ofAssortment.parameters.unit = .centimeters := rfl
  have hfactor : LengthUnit.centimeters.factor = 10.0 := rfl
  have hmultiple : (LengthUnit.centimeters.multiple : ℤ) = 10 := rfl
  have hsolids : ofAssortment.solids =
      [⟨.cylinder, 0.125⟩, ⟨.box, 2.0⟩, ⟨.sphere, 1.5⟩, ⟨.box, 0.5⟩] := rfl
  have horder : inReadingOrder .solid ofAssortment.solids =
      [⟨.box, 2.0⟩, ⟨.box, 0.5⟩, ⟨.sphere, 1.5⟩, ⟨.cylinder, 0.125⟩] := rfl
  have hlengths : ofAssortment.solids.map (fun s => hundredths (leadingLength 10.0 s)) =
      [62, 2000, 1050, 500] := by decide
  have hheights : ofAssortment.solids.map (fun s => hundredths (heightOf 10.0 s)) =
      [188, 3000, 2250, 750] := by decide
  simp only [hsolids, List.map_cons, List.map_nil, List.cons.injEq, and_true] at hlengths hheights
  simp only [hunit, hfactor, hsolids, List.map_cons, List.map_nil, hlengths, hheights] at hwritten
  simp only [hunit, hfactor, hmultiple, horder, List.map_cons, List.map_nil, hlengths]
    at hregenerated
  exact ⟨isOrdinary_ofAssortment, hwritten, hregenerated⟩

/-- The script that is printed in the end is the first one with its statements in reading order. -/
def Preserved (trip : Trip) : Prop :=
  trip.regenerated = .success (String.ofList (render
    ((inReadingOrder .solid trip.solids).map (statement trip.parameters))) ++ "\n")

theorem not_preserved_ofSolids {unit : LengthUnit} {s : Solid} (scale : Float)
    (h : Json.reread s.scale = some s.scale ∧ Solid.validScale s.scale)
    (hplain : ∀ x ∈ shownLengths unit.factor s, 0 ≤ hundredths x)
    (hscale : Json.reread (rescanned unit s).scale = some scale) (hvalid : Solid.validScale scale)
    (hne : render [solidStatement unit.factor ⟨s.kind, scale⟩] ≠
      render [solidStatement unit.factor s]) :
    ¬ (ofSolids unit [s]).Preserved := by
  have hsolids : (ofSolids unit [s]).solids = [s] := solids_ofSolids
  have horder : inReadingOrder .solid [s] = [s] := by
    obtain ⟨kind, scale⟩ := s
    cases kind <;> rfl
  have hsucceeds : (ofSolids unit [s]).Succeeds :=
    succeeds_ofSolids (List.forall_mem_singleton.2 h)
  have hshapes : (((inReadingOrder .solid (ofSolids unit [s]).solids).map
      (rescanned unit)).map Shape.atOrigin).mapM Shape.reread =
        some [{ Shape.atOrigin (rescanned unit s) with scale }] := by
    rw [hsolids, horder, List.map_singleton, List.map_singleton, List.mapM_cons, reread_atOrigin,
      hscale]
    rfl
  intro hpreserved
  rw [Preserved, hsucceeds.regenerated_eq_render rfl
    (hsolids.symm ▸ List.forall_mem_singleton.2 hplain) hshapes
    (List.forall_mem_singleton.2 hvalid), hsolids, horder] at hpreserved
  have hprinted := String.toList_inj.2 (congrArg Outcome.printed hpreserved)
  simp only [Outcome.success, String.toList_append, String.toList_ofList,
    List.append_cancel_right_eq] at hprinted
  exact hne hprinted

/-- A cylinder whose height is no multiple of its written radius. -/
def ofCylinder : Trip := ofSolids .millimeters [⟨.cylinder, 1.25⟩]

theorem isOrdinary_ofCylinder : ofCylinder.IsOrdinary :=
  isOrdinary_ofSolids (by decide) (by decide)

/-- A box that is ten units wide. -/
def ofBox : Trip := ofSolids .centimeters [⟨.box, 1.0⟩]

theorem isOrdinary_ofBox : ofBox.IsOrdinary :=
  isOrdinary_ofSolids (by decide) (by decide)

/-- In millimetres a cylinder can come back with another height, and in another unit a box comes
back larger. -/
theorem not_preserved :
    (¬ ∀ trip : Trip, trip.IsOrdinary → trip.solids ≠ [] →
      trip.parameters.unit = .millimeters → trip.Preserved) ∧
    (¬ ∀ trip : Trip, trip.IsOrdinary → trip.solids ≠ [] →
      (∀ s ∈ trip.solids, s.kind = .box) → trip.Preserved) := by
  constructor
  · intro h
    have hne : render [solidStatement LengthUnit.millimeters.factor ⟨.cylinder, 1.24⟩] ≠
        render [solidStatement LengthUnit.millimeters.factor ⟨.cylinder, 1.25⟩] := by
      simp only [render, List.map_singleton, joinWith, solidStatement, Statement.render]
      decide +kernel
    exact not_preserved_ofSolids 1.24 (by decide +kernel) (by decide +kernel) (by decide +kernel)
      (by decide +kernel) hne (h ofCylinder isOrdinary_ofCylinder (List.cons_ne_nil _ _) rfl)
  · intro h
    have hne : render [solidStatement LengthUnit.centimeters.factor ⟨.box, 10.0⟩] ≠
        render [solidStatement LengthUnit.centimeters.factor ⟨.box, 1.0⟩] := by
      simp only [render, List.map_singleton, joinWith, solidStatement, Statement.render]
      decide +kernel
    exact not_preserved_ofSolids 10.0 (by decide +kernel) (by decide +kernel) (by decide +kernel)
      (by decide +kernel) hne (h ofBox isOrdinary_ofBox (List.cons_ne_nil _ _)
        (List.forall_mem_singleton.2 rfl))

end Trip

end CommandLine

end SolidScene
