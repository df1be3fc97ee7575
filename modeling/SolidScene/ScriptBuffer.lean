import SolidScene.Text.Quoted

/-!
# The script text and who hears of it

A `ScriptBuffer` holds a text and the handles of its subscribers in the order in which they
subscribed.  Handles are counted up from zero and never given twice.  When the text is
replaced every subscriber is called once, in order, with the new text.
-/

namespace SolidScene

/-- What a subscription is known by: the number of subscriptions before it.  A counter that is a
word of 64 bits agrees with it for fewer than `2 ^ 64` subscriptions; beyond them it runs over. -/
abbrev Handle := Nat

/-- A subscriber called with a text. -/
structure Call where
  subscriber : Handle
  text : String
  deriving DecidableEq, Repr

/-- A text and its subscribers. -/
structure ScriptBuffer where
  text : String
  nextHandle : Handle
  subscribers : List Handle
  deriving DecidableEq, Repr

namespace ScriptBuffer

/-- A buffer without text and without subscribers. -/
def empty : ScriptBuffer := ⟨"", 0, []⟩

instance : Inhabited ScriptBuffer := ⟨empty⟩

/-- The buffer with another text. -/
def setText (buffer : ScriptBuffer) (text : String) : ScriptBuffer := { buffer with text }

/-- The calls that a new text leads to. -/
def calls (buffer : ScriptBuffer) (text : String) : List Call :=
  buffer.subscribers.map fun h => ⟨h, text⟩

/-- The buffer with one more subscriber, whose handle is `buffer.nextHandle`. -/
def subscribe (buffer : ScriptBuffer) : ScriptBuffer where
  text := buffer.text
  nextHandle := buffer.nextHandle + 1
  subscribers := buffer.subscribers ++ [buffer.nextHandle]

/-- The buffer without a subscriber. -/
def unsubscribe (buffer : ScriptBuffer) (handle : Handle) : ScriptBuffer :=
  { buffer with subscribers := buffer.subscribers.filter (· != handle) }

/-- Whether a handle is that of a subscriber. -/
def isSubscribed (buffer : ScriptBuffer) (handle : Handle) : Bool :=
  buffer.subscribers.contains handle

/-- The number of subscribers. -/
def subscriberCount (buffer : ScriptBuffer) : Nat := buffer.subscribers.length

/-- A buffer as it is shown to someone looking for a fault. -/
def describe (buffer : ScriptBuffer) : String :=
  "ScriptBuffer \x7b text: " ++ Text.quoted buffer.text ++ ", subscribers: " ++
    toString buffer.subscriberCount ++ " \x7d"

end ScriptBuffer

end SolidScene
