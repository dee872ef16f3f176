import Conformance.Address
import Conformance.TokenAmount

namespace Conformance

namespace Bytes

/-- Bytes after their number, which takes eight bytes. -/
def field (bytes : Bytes) : Bytes := littleEndian 8 bytes.length ++ bytes

/-- Fields one after the other. -/
def fields (parts : List Bytes) : Bytes := parts.flatMap field

end Bytes

structure Message where
  recipient : Address
  sender : Address
  nonce : UInt64
  value : TokenAmount
  method : UInt64
  params : Bytes
  gasFeeCap : TokenAmount
  gasPremium : TokenAmount
  gasLimit : Int64
  deriving DecidableEq, Repr

namespace Message

/-- The method number of a plain transfer. -/
def send : UInt64 := 0

def parts (m : Message) : List Bytes :=
  [m.recipient.bytes, m.sender.bytes, Bytes.ofUInt64 m.nonce, m.value.bytes,
   Bytes.ofUInt64 m.method, m.params, m.gasFeeCap.bytes, m.gasPremium.bytes,
   Bytes.ofInt64 m.gasLimit]

/-- Every field stands after its length, so that fields do not run into each other. -/
def canonical (m : Message) : Bytes := Bytes.fields m.parts

/-- The digest of the canonical bytes. -/
def cid (m : Message) : Cid := .ofBytes m.canonical

/-- The number of canonical bytes, which inclusion on chain is charged for. -/
def chainLength (m : Message) : Nat := m.canonical.length

def codec : Codec Message :=
  .record "Message"
    (.required "to" Address.codec <| .required "from" Address.codec <|
      .required "call_seq_num" .uint64 <| .required "value" TokenAmount.codec <|
      .required "method" .uint64 <| .required "params" .bytes <|
      .required "gas_fee_cap" TokenAmount.codec <| .required "gas_premium" TokenAmount.codec <|
      .required "gas_limit" .int64 .nil)
    (fun m => (m.recipient, m.sender, m.nonce, m.value, m.method, m.params, m.gasFeeCap,
      m.gasPremium, m.gasLimit, ()))
    (fun (recipient, sender, nonce, value, method, params, gasFeeCap, gasPremium, gasLimit, ()) =>
      { recipient, sender, nonce, value, method, params, gasFeeCap, gasPremium, gasLimit })

end Message

inductive SigType
  | secp256k1
  | bls
  deriving DecidableEq, Repr

namespace SigType

def name : SigType → String
  | secp256k1 => "Secp256k1"
  | bls => "Bls"

def code : SigType → UInt8
  | secp256k1 => 0
  | bls => 1

def codec : Codec SigType := .choice [("Secp256k1", secp256k1), ("Bls", bls)] name

end SigType

structure Signature where
  sigType : SigType
  bytes : Bytes
  deriving DecidableEq, Repr

namespace Signature

def codec : Codec Signature :=
  .record "Signature" (.required "sig_type" SigType.codec <| .required "bytes" .bytes .nil)
    (fun s => (s.sigType, s.bytes, ()))
    (fun (sigType, bytes, ()) => { sigType, bytes })

end Signature

/-- A message with a signature of its own. -/
structure SignedMessage where
  message : Message
  signature : Signature
  deriving DecidableEq, Repr

namespace SignedMessage

def canonical (m : SignedMessage) : Bytes :=
  Bytes.fields (m.message.parts ++ [[m.signature.sigType.code], m.signature.bytes])

def cid (m : SignedMessage) : Cid := .ofBytes m.canonical

def chainLength (m : SignedMessage) : Nat := m.canonical.length

def codec : Codec SignedMessage :=
  .record "SignedMessage"
    (.required "message" Message.codec <| .required "signature" Signature.codec .nil)
    (fun m => (m.message, m.signature, ()))
    (fun (message, signature, ()) => { message, signature })

end SignedMessage
end Conformance
