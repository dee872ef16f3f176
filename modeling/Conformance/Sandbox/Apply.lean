import Conformance.Sandbox

namespace Conformance.Sandbox

open Machine (Error)

/-- The share of the gas price that is burnt. -/
def baseFee : TokenAmount := 1

/-- Gas for including a message, before its length is charged. -/
def inclusionBase : Int64 := 38

def sendGas : Int64 := 100

def createGas : Int64 := 1000

/-- Paid for each ticket of a block. -/
def ticketReward : TokenAmount := 1000

/-- What the randomness of a tick is drawn for. -/
def cronTag : Int64 := 7

/-- The gas for including a message: each byte of its length counts one. -/
def inclusionGas? (chainLength : Nat) : Option Int64 :=
  Word.add? inclusionBase (Int64.ofNat chainLength)

/-- A rejected message costs its sender nothing and its miner the inclusion. -/
def rejected (code : ExitCode) (inclusion : Int64) : Outcome where
  receipt := { exitCode := code, returnValue := [], gasUsed := 0 }
  penalty := baseFee * Word.bits inclusion
  reward := 0

inductive Admission
  | rejected (code : ExitCode)
  /-- The sender's ID and record, and what is left of its balance when all gas is paid for. -/
  | admitted (sender : UInt64) (actor : Actor) (available : TokenAmount)

/-- A message needs gas for its inclusion, a sender with its nonce, and a balance for its gas. -/
def admission (s : Sandbox) (m : Message) (inclusion : Int64) : Except Error Admission :=
  if m.gasLimit < inclusion then .ok (.rejected .outOfGas)
  else
    match s.resolve m.sender with
    | none => .ok (.rejected .senderInvalid)
    | some sender =>
      match s.actorAt sender with
      | .error e => .error e
      | .ok actor =>
        if actor.code ≠ .account then .ok (.rejected .senderInvalid)
        else if actor.nonce ≠ m.nonce then .ok (.rejected .senderStateInvalid)
        else
          match TokenAmount.sub? actor.balance (m.gasFeeCap * Word.bits m.gasLimit) with
          | none => .ok (.rejected .senderStateInvalid)
          | some available => .ok (.admitted sender actor available)

/-- Moves value from one actor to another, who may be the same. -/
def transfer (s : Sandbox) (sender receiver : UInt64) (value : TokenAmount) :
    Except Error Unit × Sandbox :=
  match s.debit sender value .valueUncovered with
  | .error e => (.error e, s)
  | .ok s =>
    match s.credit receiver value with
    | .error e => (.error e, s)
    | .ok s => (.ok (), s)

/-- Runs a message: its exit code and the gas of the execution. A receiver that does not exist is
created, unless it is named by an ID. -/
def execute (s : Sandbox) (sender : UInt64) (m : Message) (available : TokenAmount)
    (gasLeft : Int64) : Except Error (ExitCode × Int64) × Sandbox :=
  if m.method ≠ Message.send then (.ok (.invalidMethod, sendGas), s)
  else if available < m.value then (.ok (.insufficientFunds, sendGas), s)
  else
    match s.resolve m.recipient with
    | some receiver =>
      if gasLeft < sendGas then (.ok (.outOfGas, gasLeft), s)
      else
        let (r, s) := s.transfer sender receiver m.value
        (r.map (fun _ => (.ok, sendGas)), s)
    | none =>
      if m.recipient.isId then (.ok (.invalidReceiver, sendGas), s)
      else if gasLeft < sendGas + createGas then (.ok (.outOfGas, gasLeft), s)
      else
        match s.insertActor m.recipient (.account 0) with
        | .error e => (.error e, s)
        | .ok (receiver, s) =>
          let (r, s) := s.transfer sender receiver m.value
          (r.map (fun _ => (.ok, sendGas + createGas)), s)

/-- The burnt share of the gas price: the base fee, if the cap allows it. -/
def burnRate (m : Message) : TokenAmount := min baseFee m.gasFeeCap

/-- The miner's share of the gas price: the premium, as far as the cap leaves room for it. -/
def tipRate (m : Message) : TokenAmount := min m.gasPremium (m.gasFeeCap - baseFee)

/-- The sender pays for the gas used: one share is burnt, the other held for the miner. -/
def settle (s : Sandbox) (sender : UInt64) (m : Message) (code : ExitCode) (gasUsed : Int64) :
    Except Error Outcome × Sandbox :=
  let burn := burnRate m * Word.bits gasUsed
  let reward := tipRate m * Word.bits gasUsed
  match s.debit sender (burn + reward) .depositUncovered with
  | .error e => (.error e, s)
  | .ok s =>
    (.ok { receipt := { exitCode := code, returnValue := [], gasUsed }, penalty := 0, reward },
     { s with burnt := s.burnt + burn, rewardPool := s.rewardPool + reward })

/-- Executes an admitted message whose nonce is used up, and has it paid for. No more gas is used
than the limit. -/
def run (s : Sandbox) (sender : UInt64) (m : Message) (available : TokenAmount)
    (inclusion : Int64) : Except Error Outcome × Sandbox :=
  match Word.sub? m.gasLimit inclusion with
  | none => (.error .subtractionOverflow, s)
  | some gasLeft =>
    match s.execute sender m available gasLeft with
    | (.error e, s) => (.error e, s)
    | (.ok (code, gas), s) =>
      match Word.add? inclusion gas with
      | none => (.error .additionOverflow, s)
      | some total => s.settle sender m code (min total m.gasLimit)

/-- A message is admitted or rejected; an admitted one uses up its nonce, is executed, and pays for the
gas it used. -/
def apply (m : Message) (chainLength : Nat) (s : Sandbox) : Except Error Outcome × Sandbox :=
  match inclusionGas? chainLength with
  | none => (.error .additionOverflow, s)
  | some inclusion =>
    match s.admission m inclusion with
    | .error e => (.error e, s)
    | .ok (.rejected code) => (.ok (rejected code inclusion), s)
    | .ok (.admitted sender actor available) =>
      match Word.next? actor.nonce with
      | none => (.error .additionOverflow, s)
      | some nonce => (s.putActor sender { actor with nonce }).run sender m available inclusion

/-- The reward of a block's tickets; there are none if their number is negative. -/
def blockReward (tickets : Int64) : TokenAmount := ticketReward * tickets.toInt.toNat

/-- Pays a miner the gas rewards, as far as the pool holds them, and the tickets. The penalty is
burnt out of that. A miner that does not exist is created. -/
def reward (miner : Address) (penalty gasReward : TokenAmount) (tickets : Int64) (s : Sandbox) :
    Except Error Unit × Sandbox :=
  let paid := min gasReward s.rewardPool
  let gross := paid + blockReward tickets
  let fine := min penalty gross
  let s := { s with rewardPool := s.rewardPool - paid, burnt := s.burnt + fine }
  match s.locate miner with
  | .error e => (.error e, s)
  | .ok (id, s) =>
    match s.credit id (gross - fine) with
    | .error e => (.error e, s)
    | .ok s => (.ok (), s)

def cron (epoch : Int64) (randomness : Randomness) (s : Sandbox) : Sandbox :=
  { s with lastCron := some (epoch, randomness.draw cronTag epoch []) }

def vm : Vm Sandbox where
  root := .ofView (fun s => .ok s.root)
  storeGet cid := .ofView (·.storeGet cid)
  storePut data := .ofUpdate (fun s => .ok (s.storePut data))
  actor a := .ofView (fun s => .ok (s.actor? a))
  setActorState a balance head := .ofUpdate (·.setActorState a balance head)
  createActor code a balance head := .ofUpdate (·.createActor code a balance head)

/-- The sandbox as a machine. Epoch and miner do not matter to a message. -/
def machine : Machine Sandbox where
  toVm := vm
  apply _ _ m chainLength := .ofStep (apply m chainLength)
  reward _ miner penalty gasReward tickets := .ofStep (reward miner penalty gasReward tickets)
  cron epoch randomness := .ofUpdate (fun s => .ok ((), s.cron epoch randomness))

end Conformance.Sandbox
