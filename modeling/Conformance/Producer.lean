import Conformance.Block

namespace Conformance

/-- What a message takes from its producer. -/
structure MessageDefaults where
  value : TokenAmount := 0
  gasLimit : Int64 := 1000000
  gasFeeCap : TokenAmount := 1
  gasPremium : TokenAmount := 1
  deriving DecidableEq, Repr, Inhabited

/-- An override of one field. -/
inductive MessageOption
  | value (v : TokenAmount)
  | nonce (n : UInt64)
  | gasLimit (limit : Int64)
  | gasFeeCap (cap : TokenAmount)
  | gasPremium (premium : TokenAmount)
  deriving DecidableEq, Repr

/-- The fields of a message that options decide. -/
structure MessageSettings where
  value : TokenAmount
  nonce : UInt64
  gasLimit : Int64
  gasFeeCap : TokenAmount
  gasPremium : TokenAmount
  deriving DecidableEq, Repr

namespace MessageSettings

/-- Without options the nonce is zero. -/
def ofDefaults (d : MessageDefaults) : MessageSettings :=
  { value := d.value, nonce := 0, gasLimit := d.gasLimit, gasFeeCap := d.gasFeeCap,
    gasPremium := d.gasPremium }

def override (s : MessageSettings) : MessageOption → MessageSettings
  | .value value => { s with value }
  | .nonce nonce => { s with nonce }
  | .gasLimit gasLimit => { s with gasLimit }
  | .gasFeeCap gasFeeCap => { s with gasFeeCap }
  | .gasPremium gasPremium => { s with gasPremium }

end MessageSettings

/-- Builds messages and remembers them in order. -/
structure Producer where
  defaults : MessageDefaults := {}
  built : List Message := []
  deriving DecidableEq, Repr, Inhabited

namespace Producer

/-- Options apply from left to right. -/
def resolve (p : Producer) (options : List MessageOption) : MessageSettings :=
  options.foldl MessageSettings.override (.ofDefaults p.defaults)

def build (p : Producer) (recipient sender : Address) (method : UInt64) (params : Bytes)
    (options : List MessageOption) : Message × Producer :=
  let s := p.resolve options
  let m : Message :=
    { recipient, sender, nonce := s.nonce, value := s.value, method, params,
      gasFeeCap := s.gasFeeCap, gasPremium := s.gasPremium, gasLimit := s.gasLimit }
  (m, { p with built := p.built ++ [m] })

/-- A plain transfer carries no parameters. -/
def transfer (p : Producer) (recipient sender : Address) (options : List MessageOption) :
    Message × Producer :=
  p.build recipient sender Message.send [] options

end Producer

namespace Block

/-- A block without messages wins one ticket unless told otherwise. -/
def start (miner : Address) : Block := { bls := [], secp := [], miner, tickets := 1 }

def addBls (b : Block) (m : Message) : Block := { b with bls := b.bls ++ [m] }

def addSecp (b : Block) (m : SignedMessage) : Block := { b with secp := b.secp ++ [m] }

/-- Drops the messages; miner and tickets stay. -/
def clear (b : Block) : Block := { b with bls := [], secp := [] }

end Block
end Conformance
