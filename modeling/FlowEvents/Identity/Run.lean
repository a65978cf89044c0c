import FlowEvents.Identity.Flow
import FlowEvents.Identity.HostId

/-! # Runs

A `Run` refers to one execution of one flow anywhere in the cluster.  Its *identity* is the flow
version and the hosted id of the host that started it; the host that executes it is a routing hint
which may change and which equality and hashing never look at.

A run whose origin is unassigned is a placeholder.  It is adopted at most once, and from then on
its identity never changes.
-/

namespace FlowEvents

/-- A reference to one execution of a flow. -/
structure Run where
  flow : FlowVersion
  origin : HostId
  /-- The host that executes, or last executed, the run. -/
  executor : String
  deriving Repr

namespace Run

instance : Inhabited Run := ⟨⟨default, default, ""⟩⟩

/-- A placeholder for a run about to start on `executor`. -/
def pending (flow : FlowVersion) (executor : String) : Run :=
  ⟨flow, HostId.unassigned executor, executor⟩

/-- What tells one run from another. -/
def identity (r : Run) : FlowVersion × HostId :=
  (r.flow, r.origin)

def adopted (r : Run) : Bool :=
  r.origin.isAssigned

/-- Gives a placeholder its id.  A run that holds one refuses any other, and the reserved zero is
never an id to adopt. -/
def adopt (r : Run) (offer : HostId) : Except IdFault Run :=
  if r.adopted then
    .error (.alreadyAdopted r.origin.text)
  else if offer.isAssigned then
    .ok { r with origin := offer }
  else
    .error (.unassigned offer.host)

def adoptText (r : Run) (text : String) : Except IdFault Run :=
  HostId.parse text >>= r.adopt

def migrate (r : Run) (executor : String) : Run :=
  { r with executor := executor }

/-- The text form, for reading only: `runref_<flow>_<origin>`. -/
def text (r : Run) : String :=
  "runref_" ++ r.flow.text ++ "_" ++ r.origin.text

/-! ## Equality and hashing look at the identity only -/

instance : BEq Run := ⟨fun a b => a.identity == b.identity⟩

def feed {σ : Type} (h : Hasher σ) (r : Run) (acc : σ) : σ :=
  r.origin.feed h (r.flow.feed h acc)

def hashWith {σ : Type} (h : Hasher σ) (r : Run) : UInt64 :=
  h.finish (r.feed h h.start)

instance : Hashable Run := ⟨hashWith .mixing⟩

theorem beq_iff {a b : Run} : (a == b) = true ↔ a.identity = b.identity := by
  show (a.identity == b.identity) = true ↔ _
  exact beq_iff_eq

instance : EquivBEq Run where
  rfl := beq_iff.mpr rfl
  symm h := beq_iff.mpr (beq_iff.mp h).symm
  trans h h' := beq_iff.mpr ((beq_iff.mp h).trans (beq_iff.mp h'))

/-- Equal runs feed the same, whatever the hasher makes of it. -/
theorem feed_congr {σ : Type} {a b : Run} (hab : (a == b) = true) (h : Hasher σ) (acc : σ) :
    a.feed h acc = b.feed h acc := by
  obtain ⟨hflow, horigin⟩ := Prod.mk.inj (beq_iff.mp hab)
  rw [feed, feed, hflow, horigin]

theorem hashWith_congr {σ : Type} (h : Hasher σ) {a b : Run} (hab : (a == b) = true) :
    a.hashWith h = b.hashWith h :=
  congrArg h.finish (feed_congr hab h h.start)

instance : LawfulHashable Run where
  hash_eq _ _ hab := hashWith_congr .mixing hab

@[simp]
theorem identity_migrate (r : Run) (executor : String) :
    (r.migrate executor).identity = r.identity := rfl

theorem text_congr {a b : Run} (h : a.identity = b.identity) : a.text = b.text := by
  obtain ⟨hf, ho⟩ := Prod.mk.inj h
  simp only [text, hf, ho]

end Run

end FlowEvents
