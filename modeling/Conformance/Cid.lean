import Conformance.Bytes.Hex
import Conformance.Bytes.Sha256
import Conformance.Json.Codec
import Conformance.SortedMap

namespace Conformance

/-- Identifiers made here name bytes by their digest; any other text is taken as it is. -/
structure Cid where
  text : String
  deriving DecidableEq, Repr, Inhabited

namespace Cid

def ofDigest (digest : Bytes) : Cid := ⟨"b" ++ Hex.encode digest⟩

/-- The identifier of a byte string. -/
def ofBytes (data : Bytes) : Cid := ofDigest (sha256 data)

/-- The code of an account actor. -/
def account : Cid := ⟨"fil/1/account"⟩

/-- The head of an actor with no state of its own. -/
def emptyObject : Cid := ofBytes []

def codec : Codec Cid := Codec.string.map text mk

def stored (c : Cid) : Bytes := Bytes.sized (Bytes.utf8 c.text)

theorem stored_inj {a b : Cid} (h : stored a = stored b) : a = b := by
  cases a; cases b
  simpa using Bytes.utf8_inj.mp (Bytes.sized_inj h)

instance : MapKey Cid where
  rank c := Bytes.nats c.stored
  rank_inj h := stored_inj (Bytes.nats_inj h)

end Cid

instance : MapKey UInt64 where
  rank n := Bytes.nats (Bytes.ofUInt64 n)
  rank_inj h := Bytes.ofUInt64_inj (Bytes.nats_inj h)

end Conformance
