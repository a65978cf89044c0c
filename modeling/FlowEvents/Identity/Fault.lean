import FlowEvents.Text.Quoted

/-! # What can be wrong with an identity

Identities meet the outside world in two places: where the text of a hosted id is read, and where
a run is given its id.  `IdFault` lists what can go wrong there; each fault carries the text that
its message has to name.
-/

namespace FlowEvents

inductive IdFault where
  /-- The text has no dash, so it cannot be a host and a number. -/
  | malformed (text : String)
  | emptyHost (text : String)
  /-- What stands after the last dash is no number of the allowed range. -/
  | badNumber (text : String)
  | unassigned (host : String)
  /-- The run's own id, in its text form. -/
  | alreadyAdopted (current : String)
  deriving DecidableEq, Repr

namespace IdFault

def label : IdFault → String
  | malformed _ => "id_malformed"
  | emptyHost _ => "id_empty_host"
  | badNumber _ => "id_bad_number"
  | unassigned _ => "id_unassigned"
  | alreadyAdopted _ => "run_already_adopted"

/-- The message for a reader.  Foreign text is quoted; a run's own id is shown as it is. -/
def message : IdFault → String
  | malformed text => "malformed hosted id " ++ Text.quoted text ++ ": expected <host>-<id>"
  | emptyHost text => "hosted id " ++ Text.quoted text ++ " has an empty host"
  | badNumber text => "hosted id " ++ Text.quoted text ++ " has a non-numeric id"
  | unassigned host => "hosted id for host " ++ Text.quoted host ++ " is unassigned (id 0)"
  | alreadyAdopted current => "run " ++ current ++ " is already adopted"

end IdFault

end FlowEvents
