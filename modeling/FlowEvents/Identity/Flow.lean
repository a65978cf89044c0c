import FlowEvents.Identity.Hashing

/-! # Flow versions

Flow definitions live elsewhere; a `FlowVersion` is the handle by which ids and events name one
version of one of them.
-/

namespace FlowEvents

/-- One version of a flow definition. -/
@[ext]
structure FlowVersion where
  flow : String
  version : UInt32
  deriving DecidableEq, Hashable, Repr

namespace FlowVersion

instance : Inhabited FlowVersion := ⟨⟨"", 0⟩⟩

/-- The text form, `<flow>-<version>`. -/
def text (f : FlowVersion) : String :=
  f.flow ++ "-" ++ Nat.repr f.version.toNat

def feed {σ : Type} (h : Hasher σ) (f : FlowVersion) (acc : σ) : σ :=
  h.word32 f.version (h.text f.flow acc)

end FlowVersion

end FlowEvents
