/-! # Nodes of a flow

A `Node` names the place in a flow that an event comes from: what kind of node it is and its name
within the flow.
-/

namespace FlowEvents

/-- What a node does: a trigger detects an outside condition and starts a run, a task does work, and
a merge waits for several earlier events. -/
inductive NodeKind where
  | trigger
  | task
  | merge
  deriving DecidableEq, Hashable, Repr

namespace NodeKind

def all : List NodeKind := [trigger, task, merge]

/-- The lower-case name used in tags, log lines and records. -/
def name : NodeKind → String
  | trigger => "trigger"
  | task => "task"
  | merge => "merge"

def ofName? (s : String) : Option NodeKind :=
  all.find? fun k => k.name == s

theorem ofName?_name (k : NodeKind) : ofName? k.name = some k := by
  cases k <;> decide

theorem name_of_ofName? {s : String} {k : NodeKind} (h : ofName? s = some k) : k.name = s := by
  have := List.find?_some h
  simpa using this

end NodeKind

@[ext]
structure Node where
  kind : NodeKind
  name : String
  deriving DecidableEq, Hashable, Repr

namespace Node

/-- The text form, `<kind>.<name>`. -/
def text (n : Node) : String :=
  n.kind.name ++ "." ++ n.name

/-- The tag of an event that this node reports as good. -/
def goodTag (n : Node) : String :=
  n.text ++ ".good"

end Node

end FlowEvents
