import FlowEvents.Bus.Observer
import FlowEvents.Event.Edit

/-! # Scripted observers

An observer whose reaction is given as data.  Told of an event it may pass over internal ones;
otherwise it edits its copy, panics if it is to, records the copy, and publishes an event of its own
if it is to.  Whether it panics or publishes is decided by the tag that the event came with, not by
the one it may have been given since.
-/

namespace FlowEvents.Bus

/-- A panic at one tag or at any, with a text or with something that is none. -/
structure Script.Panic where
  tag : Option String
  text : Option String

/-- A reaction given as data; a reply is the tag at which the observer publishes, and what. -/
structure Script where
  name : Option String
  skipsInternal : Bool
  edits : List Event.Edit
  panic : Option Script.Panic
  reply : Option (String × Event)

namespace Script

def Panic.isDue (p : Panic) (tag : String) : Bool :=
  p.tag.all (· == tag)

def repliesTo (s : Script) (tag : String) : List Act :=
  match s.reply with
  | some (trigger, e) => if trigger = tag then [.publish e] else []
  | none => []

def react (s : Script) (e : Event) : Reaction :=
  if s.skipsInternal && e.isInternal then ⟨[], .returned⟩
  else
    match s.panic.filter (·.isDue e.tag) with
    | some p => ⟨[], .panicked p.text⟩
    | none => ⟨.keep (e.applyAll s.edits) :: s.repliesTo e.tag, .returned⟩

def observer (s : Script) : Observer :=
  ⟨s.name, s.react⟩

end Script

end FlowEvents.Bus
