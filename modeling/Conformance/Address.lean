import Conformance.Cid

namespace Conformance

/-- The first twenty bytes of a digest. -/
structure Payload where
  bytes : Bytes
  length_bytes : bytes.length = 20
  deriving DecidableEq, Repr

namespace Payload

theorem ext_bytes {p q : Payload} (h : p.bytes = q.bytes) : p = q := by
  cases p; cases q
  simpa using h

def ofDigest (data : Bytes) : Payload where
  bytes := (sha256 data).take 20
  length_bytes := by simp

end Payload

inductive Address
  /-- The ID a machine assigned. -/
  | id (n : UInt64)
  /-- The digest of a secp256k1 public key. -/
  | secp256k1 (payload : Payload)
  /-- The digest of what created the actor. -/
  | actor (payload : Payload)
  /-- A BLS public key. -/
  | bls (key : Bytes)
  deriving DecidableEq, Repr

namespace Address

instance : Inhabited Address := ⟨.id 0⟩

/-- Why a text or a key is no address. -/
inductive Error
  | noNetwork (text : String)
  | noProtocol (text : String)
  | invalidId (text : String) (cause : NumeralError)
  | invalidPayload (cause : HexError)
  | payloadLength (length : Nat)
  | invalidKey (cause : HexError)
  | keyLength (length : Nat)
  | unknownProtocol (protocol : Char) (text : String)
  deriving DecidableEq, Repr

namespace Error

def message : Error → String
  | noNetwork s => "address '" ++ s ++ "' must start with 't'"
  | noProtocol s => "address '" ++ s ++ "' is missing a protocol"
  | invalidId s e => "invalid ID address '" ++ s ++ "': " ++ e.message
  | invalidPayload e => "invalid address payload: " ++ e.message
  | payloadLength n => "invalid address payload length " ++ Numeral.ofNat n
  | invalidKey e => "invalid BLS address: " ++ e.message
  | keyLength n => "invalid BLS public key length: expected 48, got " ++ Numeral.ofNat n
  | unknownProtocol c s => "unknown address protocol '" ++ c.toString ++ "' in '" ++ s ++ "'"

end Error

def ofSecp256k1Key (key : Bytes) : Address := .secp256k1 (.ofDigest key)

def ofActorData (data : Bytes) : Address := .actor (.ofDigest data)

/-- A BLS public key has 48 bytes. -/
def ofBlsKey (key : Bytes) : Except Error Address :=
  if key.length = 48 then .ok (.bls key) else .error (.keyLength key.length)

def protocol : Address → UInt8
  | id _ => 0
  | secp256k1 _ => 1
  | actor _ => 2
  | bls _ => 3

def isId : Address → Bool
  | id _ => true
  | _ => false

def id? : Address → Option UInt64
  | id n => some n
  | _ => none

/-- The protocol, then a big-endian ID or the payload. -/
def bytes : Address → Bytes
  | id n => 0 :: Bytes.bigEndian 8 n.toNat
  | secp256k1 p => 1 :: p.bytes
  | actor p => 2 :: p.bytes
  | bls key => 3 :: key

def chars : Address → List Char
  | id n => 't' :: '0' :: Numeral.digits n.toNat
  | secp256k1 p => 't' :: '1' :: Bytes.chars (Hex.digits p.bytes)
  | actor p => 't' :: '2' :: Bytes.chars (Hex.digits p.bytes)
  | bls key => 't' :: '3' :: Bytes.chars (Hex.digits key)

def toText (a : Address) : String := String.ofList a.chars

def readPayload (text : String) : Except Error Payload :=
  match Hex.decode text with
  | .error e => .error (.invalidPayload e)
  | .ok bytes =>
    if h : bytes.length = 20 then .ok ⟨bytes, h⟩ else .error (.payloadLength bytes.length)

def parse (s : String) : Except Error Address :=
  match s.toList with
  | 't' :: c :: rest =>
    if c = '0' then
      match Numeral.readUInt64 rest with
      | .ok n => .ok (.id n)
      | .error e => .error (.invalidId s e)
    else if c = '1' then (readPayload (String.ofList rest)).map secp256k1
    else if c = '2' then (readPayload (String.ofList rest)).map actor
    else if c = '3' then
      match Hex.decode (String.ofList rest) with
      | .ok key => ofBlsKey key
      | .error e => .error (.invalidKey e)
    else .error (.unknownProtocol c s)
  | ['t'] => .error (.noProtocol s)
  | _ => .error (.noNetwork s)

def codec : Codec Address := Codec.text toText (fun s => (parse s).mapError Error.message)

theorem toText_inj {a b : Address} (h : a.toText = b.toText) : a = b := by
  have hchars : a.chars = b.chars := String.ofList_injective h
  cases a <;> cases b <;> simp only [chars, List.cons.injEq, true_and] at hchars
  case id.id m n => rw [UInt64.toNat_inj.mp (Numeral.digits_inj hchars)]
  case secp256k1.secp256k1 p q =>
    rw [Payload.ext_bytes (Hex.digits_inj (Bytes.chars_inj hchars))]
  case actor.actor p q =>
    rw [Payload.ext_bytes (Hex.digits_inj (Bytes.chars_inj hchars))]
  case bls.bls p q => rw [Hex.digits_inj (Bytes.chars_inj hchars)]
  all_goals exact absurd hchars.1 (by decide)

def stored (a : Address) : Bytes := Bytes.sized (Bytes.utf8 a.toText)

theorem stored_inj {a b : Address} (h : stored a = stored b) : a = b :=
  toText_inj (Bytes.utf8_inj.mp (Bytes.sized_inj h))

instance : MapKey Address where
  rank a := Bytes.nats a.stored
  rank_inj h := stored_inj (Bytes.nats_inj h)

/-- Addresses in the order of their bytes, each of them once. -/
def sort (as : List Address) : List Address :=
  (as.mergeSort (fun a b => a.bytes ≤ b.bytes)).eraseReps

end Address
end Conformance
