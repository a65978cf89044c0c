import FlowEvents.Text.Quoted

/-! # Settings of a bus

A bus writes a line for each publish unless that is switched off or the event's tag is quiet.  Tags
are compared character for character.  Nothing else depends on the settings.
-/

namespace FlowEvents.Bus

structure Config where
  trace : Bool := true
  /-- Tags whose publishes are not traced. -/
  quietTags : List String := []
  deriving DecidableEq, Repr

namespace Config

instance : Inhabited Config := ⟨⟨true, []⟩⟩

def quieten (c : Config) (tag : String) : Config :=
  { c with quietTags := c.quietTags ++ [tag] }

def silences (c : Config) (tag : String) : Bool :=
  c.quietTags.any (· == tag)

def announces (c : Config) (tag : String) : Bool :=
  c.trace && !c.silences tag

def describe (c : Config) : String :=
  "BusConfig \x7b trace: " ++ (if c.trace then "true" else "false") ++ ", quiet_tags: [" ++
    ", ".intercalate (c.quietTags.map Text.quoted) ++ "] \x7d"

end Config

end FlowEvents.Bus
