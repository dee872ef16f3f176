import Conformance.Rpc.Client

namespace Conformance.Rpc

/-- The handle on a server's machine. It keeps the last root that the server reported; every call that
may change the machine drops it first. -/
structure Remote (σ : Type) where
  session : Client.Session σ
  /-- The root of the machine, where it is known. -/
  root : Option Cid := none

namespace Remote
variable {σ π ρ : Type} (c : Client) (link : Link σ)

/-- A call that leaves the machine as it is. -/
def ask (m : Method π ρ) (params : π) : Op (Remote σ) ρ := fun r =>
  let (result, session) := c.call link m params r.session
  (result.mapError .ofRpc, { r with session })

def forget : Op (Remote σ) Unit := fun r => (.ok (), { r with root := none })

def remember (root : Cid) : Op (Remote σ) Unit := fun r => (.ok (), { r with root := some root })

/-- A call that may change the machine, even if it fails. -/
def command (m : Method π ρ) (params : π) : Op (Remote σ) ρ := do
  forget
  ask c link m params

/-- A command whose result tells the new root. -/
def application (m : Method π ρ) (params : π) (root : ρ → Cid) : Op (Remote σ) ρ := do
  let r ← command c link m params
  remember (root r)
  pure r

/-- The root, from the server only if it is not known. -/
def readRoot : Op (Remote σ) Cid := fun r =>
  match r.root with
  | some root => (.ok root, r)
  | none => (do
      let root ← ask c link .root ()
      remember root
      pure root : Op (Remote σ) Cid) r

def outcomeOf (r : MessageResult) : Outcome :=
  { receipt := r.receipt, penalty := r.penalty, reward := r.reward }

def vm : Vm (Remote σ) where
  root := readRoot c link
  storeGet cid := ask c link .storeGet cid
  storePut data := command c link .storePut data
  actor a := ask c link .actor a
  setActorState a balance head := command c link .setActorState (a, balance, head)
  createActor code a balance head := command c link .createActor (code, a, balance, head)

def binding : Binding (Remote σ) where
  toVm := vm c link
  applyMessage ctx m := outcomeOf <$> application c link .applyMessage (ctx, m) (·.root)
  applySigned ctx m := outcomeOf <$> application c link .applySigned (ctx, m) (·.root)
  applyTipSet blocks epoch randomness :=
    TipSetResult.receipts <$>
      application c link .applyTipSet (epoch, blocks, randomness) (·.root)

/-- Has the server start a new machine for a test and takes hold of it. -/
def start (test : Option String) (s : Client.Session σ) : Except Error (Remote σ) × Client.Session σ :=
  match c.call link .newVm test s with
  | (.ok (), s) => (.ok { session := s }, s)
  | (.error e, s) => (.error e, s)

end Remote
end Conformance.Rpc
