import FlowEvents.Log

/-! # Observers

An observer is told of every published event, each time in a notification of its own and with a
copy of its own.  What it does then is a *reaction*: the acts it goes through, and how it ends.  The
reaction is a function of the copy.  As the copy carries the number of the publish and a slot is
notified of each publish at most once, that leaves an observer free to act differently every time.

The acts of an observer are those of any other caller of the bus, and a reaction may publish and
register in its turn.
-/

namespace FlowEvents.Bus

open Log (Line)

inductive Ending where
  | returned
  /-- With a text, or with something that is none. -/
  | panicked (text : Option String)
  | pending
  deriving DecidableEq, Repr

mutual

inductive Observer where
  /-- A name for the log, unless asking for it panics, and the reaction to each event. -/
  | mk (name : Option String) (react : Event → Reaction)

inductive Reaction where
  | mk (acts : List Act) (ending : Ending)

/-- What a caller of the bus does. -/
inductive Act where
  | publish (e : Event)
  | register (o : Observer)
  | write (l : Line)
  /-- Records an event, for whoever looks at the observer later. -/
  | keep (e : Event)

end

def Observer.name : Observer → Option String
  | mk name _ => name

def Observer.react : Observer → Event → Reaction
  | mk _ react => react

def Reaction.acts : Reaction → List Act
  | mk acts _ => acts

def Reaction.ending : Reaction → Ending
  | mk _ ending => ending

def Reaction.lines (r : Reaction) : List Line :=
  r.acts.filterMap fun
    | .write l => some l
    | _ => none

instance : Inhabited Observer := ⟨⟨none, fun _ => ⟨[], .returned⟩⟩⟩

/-- The observer that writes a line for every event. -/
def Observer.logging : Observer :=
  ⟨some "LogWriter", fun e => ⟨[.write e.receiptLine], .returned⟩⟩

end FlowEvents.Bus
