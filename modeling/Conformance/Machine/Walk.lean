import Conformance.Machine.Interface

namespace Conformance

/-- What the messages of a block added up to, and what has been seen in the tip-set so far. -/
structure Tally where
  seen : List Cid := []
  receipts : List Receipt := []
  penalty : TokenAmount := 0
  reward : TokenAmount := 0
  deriving DecidableEq, Repr

namespace Machine
variable {σ : Type} (m : Machine σ)

def applyEntry (epoch : Int64) (index : Nat) (miner : Address) (t : Tally) (e : Message × Nat) :
    Op σ Tally :=
  let cid := e.1.cid
  if cid ∈ t.seen then pure t
  else do
    let o ← (m.apply epoch miner e.1 e.2).within
      ("applying message " ++ cid.text ++ " in block " ++ Numeral.ofNat index)
    pure { seen := t.seen ++ [cid], receipts := t.receipts ++ [o.receipt],
           penalty := t.penalty + o.penalty, reward := t.reward + o.reward }

/-- Applies the messages of a block and settles it. Penalty and reward start anew. -/
def applyBlock (epoch : Int64) (t : Tally) (b : Block × Nat) : Op σ Tally := do
  let (block, index) := b
  let t ← block.entries.foldlM (m.applyEntry epoch index block.miner)
    { t with penalty := 0, reward := 0 }
  (m.reward epoch block.miner t.penalty t.reward block.tickets).within
    ("rewarding block " ++ Numeral.ofNat index ++ " miner " ++ block.miner.toText)
  pure t

/-- Applies block after block, and ticks. A message whose content was seen before in the tip-set, in
whatever form, is dropped. -/
def applyTipSet (blocks : List Block) (epoch : Int64) (randomness : Randomness) :
    Op σ (List Receipt) := do
  let t ← blocks.zipIdx.foldlM (m.applyBlock epoch) {}
  (m.cron epoch randomness).within "end-of-tip-set cron"
  pure t.receipts

/-- The machine driven in place. -/
def binding : Binding σ where
  toVm := m.toVm
  applyMessage ctx msg := m.apply ctx.epoch ctx.miner msg msg.chainLength
  applySigned ctx msg := m.apply ctx.epoch ctx.miner msg.message msg.chainLength
  applyTipSet := m.applyTipSet

end Machine
end Conformance
