import Conformance.Message

namespace Conformance

/-- What one block proposes: messages signed together, messages signed each, and who mined it. -/
structure Block where
  bls : List Message
  secp : List SignedMessage
  miner : Address
  tickets : Int64
  deriving DecidableEq, Repr

namespace Block

def messageCount (b : Block) : Nat := b.bls.length + b.secp.length

/-- The messages in the order they are applied, with the lengths they are charged for. -/
def entries (b : Block) : List (Message × Nat) :=
  b.bls.map (fun m => (m, m.chainLength)) ++ b.secp.map (fun m => (m.message, m.chainLength))

def codec : Codec Block :=
  .record "BlockMessagesInfo"
    (.required "bls_messages" Message.codec.list <|
      .required "secp_messages" SignedMessage.codec.list <|
      .required "miner" Address.codec <| .required "ticket_count" .int64 .nil)
    (fun b => (b.bls, b.secp, b.miner, b.tickets, ()))
    (fun (bls, secp, miner, tickets, ()) => { bls, secp, miner, tickets })

end Block

structure ExecutionContext where
  epoch : Int64
  miner : Address
  deriving DecidableEq, Repr

namespace ExecutionContext

/-- The context some epochs on, unless there is no such epoch. -/
def advance? (c : ExecutionContext) (step : Int64) : Option ExecutionContext :=
  (Word.add? c.epoch step).map (fun epoch => { c with epoch })

def codec : Codec ExecutionContext :=
  .record "ExecutionContext" (.required "epoch" .int64 <| .required "miner" Address.codec .nil)
    (fun c => (c.epoch, c.miner, ()))
    (fun (epoch, miner, ()) => { epoch, miner })

end ExecutionContext
end Conformance
