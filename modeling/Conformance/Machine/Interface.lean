import Conformance.Block
import Conformance.Failure
import Conformance.Randomness
import Conformance.Receipt

namespace Conformance

/-- A step on a state that may fail; what it did before it failed stays. -/
abbrev Op (σ : Type) := ExceptT Failure (StateM σ)

namespace Op

/-- Adds a context to the failure of a step. -/
def within {σ α : Type} (context : String) (op : Op σ α) : Op σ α := fun s =>
  match op s with
  | (.error e, s) => (.error (e.within context), s)
  | (.ok x, s) => (.ok x, s)

/-- A step that only looks at the state. -/
def ofView {σ α : Type} (view : σ → Except Machine.Error α) : Op σ α := fun s =>
  ((view s).mapError .ofMachine, s)

/-- A step that changes the state only if it succeeds. -/
def ofUpdate {σ α : Type} (update : σ → Except Machine.Error (α × σ)) : Op σ α := fun s =>
  match update s with
  | .ok (x, s) => (.ok x, s)
  | .error e => (.error (.ofMachine e), s)

/-- A step that may fail after it changed the state. -/
def ofStep {σ α : Type} (step : σ → Except Machine.Error α × σ) : Op σ α := fun s =>
  let (r, s) := step s
  (r.mapError .ofMachine, s)

end Op

/-- What applying a message came to, apart from the root after it. -/
structure Outcome where
  receipt : Receipt
  penalty : TokenAmount
  reward : TokenAmount
  deriving DecidableEq, Repr

/-- Looking at the state of a machine and setting it up. -/
structure Vm (σ : Type) where
  root : Op σ Cid
  storeGet : Cid → Op σ Bytes
  storePut : Bytes → Op σ Cid
  /-- The actor at an address in any form, if there is one. -/
  actor : Address → Op σ (Option Actor)
  /-- Replaces balance and head of an actor. -/
  setActorState : Address → TokenAmount → Cid → Op σ Actor
  /-- Creates an actor from code, address, balance and head; its ID address is assigned. -/
  createActor : Cid → Address → TokenAmount → Cid → Op σ (Actor × Address)

namespace Vm

/-- A call of one of the functions, by the type of its result. -/
inductive Call : Type → Type
  | root : Call Cid
  | storeGet (cid : Cid) : Call Bytes
  | storePut (data : Bytes) : Call Cid
  | actor (address : Address) : Call (Option Actor)
  | setActorState (address : Address) (balance : TokenAmount) (head : Cid) : Call Actor
  | createActor (code : Cid) (address : Address) (balance : TokenAmount) (head : Cid) :
    Call (Actor × Address)

def call {σ α : Type} (v : Vm σ) : Call α → Op σ α
  | .root => v.root
  | .storeGet cid => v.storeGet cid
  | .storePut data => v.storePut data
  | .actor address => v.actor address
  | .setActorState address balance head => v.setActorState address balance head
  | .createActor code address balance head => v.createActor code address balance head

end Vm

/-- A machine as its implementer gives it. -/
structure Machine (σ : Type) extends Vm σ where
  /-- Applies a message at an epoch for a miner; inclusion is charged for the given length. -/
  apply : Int64 → Address → Message → (chainLength : Nat) → Op σ Outcome
  /-- Pays a miner for a block: gas rewards and tickets, less a penalty. -/
  reward : Int64 → Address → (penalty gasReward : TokenAmount) → (tickets : Int64) → Op σ Unit
  /-- The tick at the end of a tip-set. -/
  cron : Int64 → Randomness → Op σ Unit

/-- A machine as a test drives it. -/
structure Binding (σ : Type) extends Vm σ where
  applyMessage : ExecutionContext → Message → Op σ Outcome
  applySigned : ExecutionContext → SignedMessage → Op σ Outcome
  /-- One receipt for every message that is not dropped, in the order of application. -/
  applyTipSet : List Block → Int64 → Randomness → Op σ (List Receipt)

namespace Binding
variable {σ : Type} (b : Binding σ)

/-- The outcome with the root after it. -/
def withRoot (outcome : Op σ Outcome) : Op σ MessageResult := do
  let o ← outcome
  let root ← b.root
  pure { receipt := o.receipt, penalty := o.penalty, reward := o.reward, root }

def message (ctx : ExecutionContext) (m : Message) : Op σ MessageResult :=
  b.withRoot (b.applyMessage ctx m)

def signed (ctx : ExecutionContext) (m : SignedMessage) : Op σ MessageResult :=
  b.withRoot (b.applySigned ctx m)

def tipSet (blocks : List Block) (epoch : Int64) (randomness : Randomness) :
    Op σ TipSetResult := do
  let receipts ← b.applyTipSet blocks epoch randomness
  let root ← b.root
  pure { receipts, root }

/-- A call of a binding, by the type of its result. -/
inductive Call : Type → Type 1
  | vm {α : Type} (c : Vm.Call α) : Call α
  | message (ctx : ExecutionContext) (m : Message) : Call MessageResult
  | signed (ctx : ExecutionContext) (m : SignedMessage) : Call MessageResult
  | tipSet (blocks : List Block) (epoch : Int64) (randomness : Randomness) : Call TipSetResult

def call {α : Type} : Call α → Op σ α
  | .vm c => b.toVm.call c
  | .message ctx m => b.message ctx m
  | .signed ctx m => b.signed ctx m
  | .tipSet blocks epoch randomness => b.tipSet blocks epoch randomness

end Binding
end Conformance
