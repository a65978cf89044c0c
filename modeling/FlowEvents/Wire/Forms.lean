import FlowEvents.Event.Basic
import FlowEvents.Json.Parser
import FlowEvents.Json.Printer
import FlowEvents.Wire.Payload
import FlowEvents.Wire.Record

/-! # The wire forms

How each type of the domain is written as JSON and read back.  Records are written as objects with
their fields in declaration order and read by `readRecord`; a node's kind is its name.

`decode` reads a text that holds one value and blanks around it.  What the reader has to say about
the value comes before what may be wrong behind it.
-/

namespace FlowEvents.Wire

/-! ## Ids -/

def hostIdFields : List Field :=
  [.required "host" readString, .required "id" readUInt64]

def readHostId (j : Json) : Outcome HostId := do
  let (host, number, ()) ← readRecord "HostedId" hostIdFields j
  return { host, number }

theorem readHostId_eq (j : Json) : readHostId j = (readRecord "HostedId" hostIdFields j).map
    fun (host, number, ()) => { host, number } := by
  rw [readHostId]
  cases readRecord "HostedId" hostIdFields j <;> rfl

def writeHostId (h : HostId) : Json :=
  .ofMembers [("host", .str h.host), ("id", writeInt h.number.toNat)]

def flowFields : List Field :=
  [.required "id" readString, .required "ver" readUInt32]

def readFlow (j : Json) : Outcome FlowVersion := do
  let (flow, version, ()) ← readRecord "FlowRef" flowFields j
  return { flow, version }

theorem readFlow_eq (j : Json) : readFlow j = (readRecord "FlowRef" flowFields j).map
    fun (flow, version, ()) => { flow, version } := by
  rw [readFlow]
  cases readRecord "FlowRef" flowFields j <;> rfl

def writeFlow (f : FlowVersion) : Json :=
  .ofMembers [("id", .str f.flow), ("ver", writeInt f.version.toNat)]

/-! ## Nodes -/

def kindOfName (name : String) : Outcome NodeKind :=
  match NodeKind.ofName? name with
  | some k => .ok k
  | none => .error (.unsuited (.unknownAlternative name (NodeKind.all.map NodeKind.name)))

/-- Reads a node's kind: its name, or an object with that name and null.  No other JSON is a form
of it. -/
def readKind : Json → Outcome NodeKind
  | .str name => kindOfName name
  | .obj ((name, value) :: members) => do
    let name ← readName name
    let k ← kindOfName name
    readUnit value
    match members with
    | [] => .ok k
    | (_, next) :: _ => .error (surplus .noAlternative next)
  | .flawed flaw => .error (.broken (b := .flawed flaw))
  | _ => .error (.broken (b := .noAlternative))

def writeKind (k : NodeKind) : Json :=
  .str k.name

def nodeFields : List Field :=
  [.required "class" readKind, .required "id" readString]

def readNode (j : Json) : Outcome Node := do
  let (kind, name, ()) ← readRecord "NodeRef" nodeFields j
  return { kind, name }

theorem readNode_eq (j : Json) : readNode j = (readRecord "NodeRef" nodeFields j).map
    fun (kind, name, ()) => { kind, name } := by
  rw [readNode]
  cases readRecord "NodeRef" nodeFields j <;> rfl

def writeNode (n : Node) : Json :=
  .ofMembers [("class", writeKind n.kind), ("id", .str n.name)]

/-! ## Runs -/

def runFields : List Field :=
  [.required "flow" readFlow, .required "run" readHostId, .required "exec_host" readString]

def readRun (j : Json) : Outcome Run := do
  let (flow, origin, executor, ()) ← readRecord "RunRef" runFields j
  return { flow, origin, executor }

theorem readRun_eq (j : Json) : readRun j = (readRecord "RunRef" runFields j).map
    fun (flow, origin, executor, ()) => { flow, origin, executor } := by
  rw [readRun]
  cases readRecord "RunRef" runFields j <;> rfl

def writeRun (r : Run) : Json :=
  .ofMembers
    [("flow", writeFlow r.flow), ("run", writeHostId r.origin), ("exec_host", .str r.executor)]

/-! ## Events -/

/-- Reads the payload of an event, which the event itself encloses. -/
def readEventPayload (j : Json) : Outcome Payload :=
  readPayloadWithin (maxDepth - 1) j

/-- The fields of an event.  An absent payload is an empty one. -/
def eventFields : List Field :=
  [.required "run_ref" readRun, .required "source_node" readNode, .required "tag" readString,
    .required "good" readBool, .required "id" readUInt64,
    .optional "opts" readEventPayload .empty]

def readEvent (j : Json) : Outcome Event := do
  let (run, source, tag, good, id, payload, ()) ← readRecord "Event" eventFields j
  return { run, source, tag, good, id, payload }

theorem readEvent_eq (j : Json) : readEvent j = (readRecord "Event" eventFields j).map
    fun (run, source, tag, good, id, payload, ()) => { run, source, tag, good, id, payload } := by
  rw [readEvent]
  cases readRecord "Event" eventFields j <;> rfl

/-- Writes an event with the entries of its payload in a given order. -/
def writeEventIn (entries : List (String × Tree)) (e : Event) : Json :=
  .ofMembers
    [("run_ref", writeRun e.run), ("source_node", writeNode e.source), ("tag", .str e.tag),
      ("good", .bool e.good), ("id", writeInt e.id.toNat), ("opts", .obj (writeEntries entries))]

/-- Writes an event, the keys of its payload in order. -/
def writeEvent (e : Event) : Json :=
  writeEventIn e.payload.entries e

/-! ## Texts -/

/-- Reads a text that holds one value. -/
def decode {α : Type} (read : Json → Outcome α) (text : String) : Outcome α := do
  let (j, rest) := Json.parse text.toList
  let x ← read j
  if (Json.Parser.skipBlanks rest).isEmpty then .ok x else .error (.broken (b := .trailing))

end FlowEvents.Wire
