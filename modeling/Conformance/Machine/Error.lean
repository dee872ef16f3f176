import Conformance.Address

namespace Conformance.Machine

inductive Error
  | actorExists (address : Address)
  | actorNotFound (address : Address)
  | idSpaceExhausted (address : Address)
  | blockNotFound (cid : Cid)
  | unsupportedCode (code : Cid)
  | actorVanished (id : UInt64)
  | valueUncovered
  | depositUncovered
  /-- A sum of 64-bit words is out of range. -/
  | additionOverflow
  /-- A difference of 64-bit words is out of range. -/
  | subtractionOverflow
  deriving DecidableEq, Repr

namespace Error

def message : Error → String
  | actorExists a => "actor " ++ a.toText ++ " already exists"
  | actorNotFound a => "actor " ++ a.toText ++ " not found"
  | idSpaceExhausted a => "actor id space exhausted at " ++ a.toText
  | blockNotFound c => "block " ++ c.text ++ " not found in store"
  | unsupportedCode c => "sandbox only supports account actors, got code " ++ c.text
  | actorVanished id => "actor t0" ++ Numeral.ofNat id.toNat ++ " vanished from state"
  | valueUncovered => "sender balance below checked value"
  | depositUncovered => "sender balance below gas deposit"
  | additionOverflow => "attempt to add with overflow"
  | subtractionOverflow => "attempt to subtract with overflow"

/-- An overflow stops whatever is running at once. -/
def isOverflow : Error → Bool
  | additionOverflow => true
  | subtractionOverflow => true
  | _ => false

end Error
end Conformance.Machine
