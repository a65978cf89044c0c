import FlowEvents.Event.Basic

/-! # Log lines

What the bus and the observers write for a reader: one line when an event is published, one when
the logging observer receives it, one when an observer panics.  A collector takes in the lines up to
a greatest level and shows them in the order of their texts, because the order in which concurrent
tasks write them means nothing.
-/

namespace FlowEvents

namespace Log

/-- The levels of lines, the gravest first. -/
inductive Level where
  | error
  | warn
  | info
  | debug
  | trace
  deriving DecidableEq, Repr

namespace Level

def name : Level → String
  | error => "ERROR"
  | warn => "WARN"
  | info => "INFO"
  | debug => "DEBUG"
  | trace => "TRACE"

def rank : Level → Nat
  | error => 1
  | warn => 2
  | info => 3
  | debug => 4
  | trace => 5

end Level

structure Line where
  level : Level
  message : String
  /-- The observer that the line is about, or no name. -/
  observer : String
  deriving DecidableEq, Repr

/-- True if a collector with the given greatest level takes in lines of a level. -/
def admits (greatest : Option Level) (level : Level) : Bool :=
  match greatest with
  | none => false
  | some g => level.rank ≤ g.rank

/-- The order in which lines are shown: by level name, then message, then observer. -/
def Line.le (a b : Line) : Bool :=
  if a.level.name = b.level.name then
    if a.message = b.message then a.observer ≤ b.observer else a.message ≤ b.message
  else a.level.name ≤ b.level.name

def collect (greatest : Option Level) (lines : List Line) : List Line :=
  (lines.filter fun l => admits greatest l.level).mergeSort Line.le

end Log

open Log (Line)

/-- The line that tells of a published event, whose number has been assigned. -/
def Event.publishLine (e : Event) : Line where
  level := .debug
  message :=
    "<" ++ e.run.text ++ "-ev:" ++ Nat.repr e.id.toNat ++ "> - bus publish type:<" ++ e.tag ++
      ">" ++ e.stage ++ " from: " ++ e.source.text
  observer := ""

/-- The line that tells of a received event.  Internal events are of interest only in detail; of
the others it is told whether they are good. -/
def Event.receiptLine (e : Event) : Line where
  level := if e.isInternal then .debug else .info
  message :=
    "event id=" ++ Nat.repr e.id.toNat ++ " run=" ++ e.run.text ++ " tag=" ++ e.tag ++
      (if e.isInternal then "" else " good=" ++ (if e.good then "true" else "false")) ++
      " node=" ++ e.source.text ++ e.stage
  observer := ""

/-- The line that tells of a panic of a named observer; a panic need not have a text. -/
def Log.panicLine (observer : String) (text : Option String) : Line where
  level := .warn
  message := "observer panicked: " ++ text.getD "unknown panic"
  observer := observer

end FlowEvents
