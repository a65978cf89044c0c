import FlowEvents.Event.Basic

/-! # Editing events

Everything that can be done to an event a caller holds is an `Edit`.  `Event.apply` carries one out
and gives the edited event together with the answer that the caller gets.  A refused edit leaves
the event as it was.
-/

namespace FlowEvents

namespace Event

/-- A change to an event, or a look at its payload. -/
inductive Edit where
  | attach (key : String) (value : Value)
  | replacePayload (payload : Payload)
  | markGood
  /-- Unlike `attach`, asks what stood under the key before. -/
  | insert (key : String) (value : Value)
  | remove (key : String)
  | find (key : String)
  | setTag (tag : String)
  | setId (id : UInt64)
  | setGood (good : Bool)
  | setSource (source : Node)
  | adopt (offer : HostId)
  | adoptText (text : String)
  | migrate (executor : String)

/-- What the caller of an edit learns. -/
inductive Answer where
  | done
  | previous (value : Option Value)
  | found (value : Option Value)
  | refused (fault : IdFault)

/-- Puts a run in place of the event's, if there is one. -/
def withRun (e : Event) : Except IdFault Run → Event × Answer
  | .ok run => ({ e with run }, .done)
  | .error fault => (e, .refused fault)

def apply (e : Event) : Edit → Event × Answer
  | .attach key value => ({ e with payload := e.payload.insert key value }, .done)
  | .replacePayload payload => ({ e with payload }, .done)
  | .markGood => (e.markGood, .done)
  | .insert key value =>
    ({ e with payload := e.payload.insert key value }, .previous (e.payload.get? key))
  | .remove key => ({ e with payload := e.payload.erase key }, .previous (e.payload.get? key))
  | .find key => (e, .found (e.payload.get? key))
  | .setTag tag => ({ e with tag }, .done)
  | .setId id => ({ e with id }, .done)
  | .setGood good => ({ e with good }, .done)
  | .setSource source => ({ e with source }, .done)
  | .adopt offer => e.withRun (e.run.adopt offer)
  | .adoptText text => e.withRun (e.run.adoptText text)
  | .migrate executor => ({ e with run := e.run.migrate executor }, .done)

/-- Carries out edits in order, whatever they answer. -/
def applyAll (e : Event) (edits : List Edit) : Event :=
  edits.foldl (fun e edit => (e.apply edit).1) e

end Event

end FlowEvents
