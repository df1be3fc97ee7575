import SolidScene.Report
import SolidScene.Scene
import SolidScene.Script.Meaning
import SolidScene.Script.Scan
import SolidScene.Script.Writer
import SolidScene.ScriptBuffer

/-!
# A scene and its script side by side

A `Workspace` keeps a scene, the parameters and the script text.  From scene to script it goes
when asked (`Step.sync`), from script to scene whenever the script is edited (`Step.edit`).
What a user may do is a `Step`; `Workspace.step` gives the workspace after it, the answer, and
the calls that subscribers of the text received meanwhile, and `Workspace.run` follows a list
of steps.
-/

namespace SolidScene

/-- A scene, the parameters of its script, and the script. -/
structure Workspace where
  scene : Scene
  parameters : Parameters
  script : ScriptBuffer
  deriving DecidableEq, Inhabited

/-- What a user may do in a workspace. -/
inductive Step
  | add (kind : Kind)
  | setScale (index : Nat) (scale : Float)
  | setPosition (index : Nat) (position : Vec3)
  | select (index : Option Nat)
  | beginDrag (index : Nat)
  | dragTo (index : Nat) (point : Vec3)
  | endDrag
  /-- Replace the shapes by solids read from a script. -/
  | replace (solids : List Solid)
  | setParameters (change : ParameterChange)
  /-- Write the scene as a script. -/
  | sync
  /-- Put another text in place of the script and read the scene from it. -/
  | edit (text : String)
  /-- Put another text in place of the script and leave the scene. -/
  | setText (text : String)
  | subscribe
  | unsubscribe (handle : Handle)
  deriving DecidableEq

/-- What a step answers. -/
inductive Answer
  /-- The step is done and has nothing to say. -/
  | done
  | failed (error : SceneError)
  /-- The index of the shape that was added. -/
  | added (index : Nat)
  /-- Whether the dragged shape moved. -/
  | moved (yes : Bool)
  /-- The script that was written. -/
  | script (text : String)
  /-- The number of shapes that were read. -/
  | shapes (count : Nat)
  /-- The handle of the new subscriber. -/
  | subscribed (handle : Handle)
  /-- Whether there was such a subscriber. -/
  | unsubscribed (yes : Bool)
  deriving DecidableEq

/-- A workspace after a step, with the answer and the calls that subscribers received. -/
structure Reply where
  workspace : Workspace
  answer : Answer
  calls : List Call
  deriving DecidableEq

namespace Workspace

/-- A workspace with no script yet. -/
def ofScene (scene : Scene) (parameters : Parameters) : Workspace := ⟨scene, parameters, .empty⟩

/-- The solids that a text says, as the style of the script has it read: a script of bare solids
is scanned, one of hollow shapes is parsed. -/
def readSolids (p : Parameters) (text : String) : List Solid :=
  match p.style with
  | .solid => Script.scan text
  | .shell => Script.read p.unit text

/-- The reply of a step that may only change the scene. -/
def replyScene (w : Workspace) : Except SceneError Scene → Reply
  | .ok scene => ⟨{ w with scene }, .done, []⟩
  | .error e => ⟨w, .failed e, []⟩

/-- The workspace with another text for a script. -/
def withText (w : Workspace) (text : String) : Workspace :=
  { w with script := w.script.setText text }

/-- What a step does. -/
def step (w : Workspace) : Step → Reply
  | .add kind => ⟨{ w with scene := w.scene.add kind }, .added w.scene.shapes.length, []⟩
  | .setScale index scale => w.replyScene (w.scene.setScale index scale)
  | .setPosition index position => w.replyScene (w.scene.setPosition index position)
  | .select index => w.replyScene (w.scene.select index)
  | .beginDrag index => w.replyScene (w.scene.beginDrag index)
  | .dragTo index point =>
    match w.scene.dragTo? index point with
    | some scene => ⟨{ w with scene }, .moved true, []⟩
    | none => ⟨w, .moved false, []⟩
  | .endDrag => ⟨{ w with scene := w.scene.endDrag }, .done, []⟩
  | .replace solids => ⟨{ w with scene := .ofSolids solids }, .done, []⟩
  | .setParameters change =>
    ⟨{ w with parameters := change.apply w.parameters }, .done, []⟩
  | .sync =>
    let text := Script.write w.parameters w.scene.solids
    ⟨w.withText text, .script text, w.script.calls text⟩
  | .edit text =>
    let scene := Scene.ofSolids (readSolids w.parameters text)
    ⟨{ w.withText text with scene }, .shapes scene.shapes.length, w.script.calls text⟩
  | .setText text => ⟨w.withText text, .done, w.script.calls text⟩
  | .subscribe =>
    ⟨{ w with script := w.script.subscribe }, .subscribed w.script.nextHandle, []⟩
  | .unsubscribe handle =>
    ⟨{ w with script := w.script.unsubscribe handle },
      .unsubscribed (w.script.isSubscribed handle), []⟩

/-- The workspace after some steps. -/
def run (w : Workspace) (steps : List Step) : Workspace :=
  steps.foldl (fun w s => (w.step s).workspace) w

/-- The replies to some steps, each given to the workspace that the ones before left. -/
def replies (w : Workspace) : List Step → List Reply
  | [] => []
  | s :: steps => w.step s :: (w.step s).workspace.replies steps

/-- The report on the scene. -/
def inspect (w : Workspace) : Report := .inspect w.scene.shapes w.parameters

end Workspace

end SolidScene
