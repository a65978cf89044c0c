/-! # Hashers

A hash map never looks into a key.  It has the key feed its parts to a hasher, one after the other,
and asks the hasher for the hash when all have been taken in.  What a key feeds is up to the key,
and what becomes of it up to the hasher.
-/

namespace FlowEvents

/-- What takes in the parts of keys and makes hashes of them. -/
structure Hasher (σ : Type) where
  start : σ
  text : String → σ → σ
  word32 : UInt32 → σ → σ
  word64 : UInt64 → σ → σ
  finish : σ → UInt64

def Hasher.mixing : Hasher UInt64 where
  start := 7
  text s acc := mixHash acc (hash s)
  word32 n acc := mixHash acc (hash n)
  word64 n acc := mixHash acc (hash n)
  finish := id

end FlowEvents
