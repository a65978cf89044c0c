import FlowEvents.Identity.Node
import FlowEvents.Identity.Run
import FlowEvents.Payload.Value

/-! # Events

An `Event` is one occurrence within a run: which node of the run's flow it comes from, a tag by
which it is routed, whether it reports a success, a number, and a payload.

Producers leave the number at zero; the bus assigns it.  A *good* event is routed by its source:
its tag is `<kind>.<name>.good` and it never becomes anything else.  Tags that start with `sys.` are
internal signalling.
-/

namespace FlowEvents

/-- One occurrence within a run, or ahead of one. -/
structure Event where
  /-- A placeholder before the run has started. -/
  run : Run
  source : Node
  tag : String
  good : Bool
  /-- Zero until published. -/
  id : UInt64
  payload : Payload

namespace Event

def internalMark : String := "sys."

def nodeUpdateTag : String := "sys.node.update"

def unpublished (run : Run) (source : Node) (tag : String) : Event :=
  { run, source, tag, good := false, id := 0, payload := .empty }

/-- Marks the event as good, which routes it by its source. -/
def markGood (e : Event) : Event :=
  { e with good := true, tag := e.source.goodTag }

/-- True of internal events.  A tag of fewer than three bytes is not looked at. -/
def isInternal (e : Event) : Bool :=
  if e.tag.utf8ByteSize < 3 then false else internalMark.toList.isPrefixOf e.tag.toList

def adopted (e : Event) : Bool :=
  e.run.adopted

/-- The remark behind an event whose run holds no id yet. -/
def stage (e : Event) : String :=
  if e.adopted then "" else " (trigger)"

/-- Two events are equal if all their fields are; so the executor of a run does not count, and a
payload that holds a non-number equals no other. -/
instance : BEq Event :=
  ⟨fun a b => a.run == b.run && a.source == b.source && a.tag == b.tag && a.good == b.good &&
    a.id == b.id && a.payload == b.payload⟩

end Event

end FlowEvents
