import Conformance.Bytes.Hex
import Conformance.Bytes.Sha256
import Conformance.Json.Codec

namespace Conformance

structure Randomness where
  seed : Bytes
  length_seed : seed.length = 32
  deriving DecidableEq, Repr

namespace Randomness

/-- Why a text is no seed. -/
inductive Error
  | hex (cause : HexError)
  | length (n : Nat)
  deriving DecidableEq, Repr

def Error.message : Error → String
  | hex e => e.message
  | length n => "seed length " ++ Numeral.ofNat n

def zero : Randomness := ⟨List.replicate 32 0, by simp⟩

instance : Inhabited Randomness := ⟨zero⟩

/-- The seed of a label is the digest of its text. -/
def ofLabel (label : String) : Randomness := ⟨sha256 (Bytes.utf8 label), by simp⟩

def parse (s : String) : Except Error Randomness :=
  match Hex.decode s with
  | .error e => .error (.hex e)
  | .ok bytes => if h : bytes.length = 32 then .ok ⟨bytes, h⟩ else .error (.length bytes.length)

/-- Thirty-two bytes for a purpose, an epoch and further entropy. -/
def draw (r : Randomness) (tag epoch : Int64) (entropy : Bytes) : Bytes :=
  sha256 (r.seed ++ Bytes.bigEndian 8 tag.toUInt64.toNat ++
    Bytes.bigEndian 8 epoch.toUInt64.toNat ++ entropy)

def codec : Codec Randomness :=
  .record "Randomness"
    (.required "seed" (.text (fun r => Hex.encode r.seed) (fun s => (parse s).mapError Error.message))
      .nil)
    (fun r => (r, ()))
    (fun (r, ()) => r)

end Randomness
end Conformance
