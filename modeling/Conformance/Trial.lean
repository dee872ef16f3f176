import Conformance.Fixture.Oracle
import Conformance.Machine.Interface
import Conformance.Producer

namespace Conformance

structure Trial (σ : Type) where
  test : String
  checks : Checks
  /-- The machine's state. -/
  vm : σ
  oracle : Fixture.Oracle
  context : ExecutionContext := { epoch := 0, miner := .id 1000 }
  producer : Producer := {}
  /-- How many applications the oracle has seen. -/
  applies : Nat := 0
  /-- How many accounts were asked for. -/
  accounts : Nat := 0
  failed : Bool := false

namespace Trial
variable {σ α : Type}

open Fixture (Observation Check)

/-- A step on the machine alone. -/
def onVm (op : Op σ α) : Op (Trial σ) α := fun t =>
  let (r, vm) := op t.vm
  (r, { t with vm })

/-- A step whose failure fails the trial. An overflow stops the step before anyone notes it. -/
def guarded (op : Op (Trial σ) α) : Op (Trial σ) α := fun t =>
  match op t with
  | (.error e, t) => (.error e, { t with failed := t.failed || !e.isOverflow })
  | (.ok x, t) => (.ok x, t)

/-- Fails the trial for an output that is not as expected. -/
def deviate (what expected actual : String) : Op (Trial σ) α := fun t =>
  (.error (.mismatch (t.test ++ " " ++ what ++ " (apply #" ++ Numeral.ofNat t.applies ++ ")")
    expected actual), { t with failed := true })

def markFailed : Op (Trial σ) Unit := fun t => (.ok (), { t with failed := true })

/-- A step that the producer takes. -/
def produce (f : Producer → α × Producer) : Op (Trial σ) α := fun t =>
  let (x, producer) := f t.producer
  (.ok x, { t with producer })

def transfer (recipient sender : Address) (options : List MessageOption) : Op (Trial σ) Message :=
  produce (·.transfer recipient sender options)

/-- Moves the context some epochs on and tells the new epoch. -/
def advanceEpoch (step : Int64) : Op (Trial σ) Int64 := fun t =>
  match t.context.advance? step with
  | some context => (.ok context.epoch, { t with context })
  | none => (.error (.ofMachine .additionOverflow), t)

/-- The address of an account of a test, by its number. -/
def accountAddress (test : String) (n : Nat) : Address :=
  .ofSecp256k1Key (Bytes.utf8 (test ++ "/account-" ++ Numeral.ofNat n))

/-- Takes the number of the next account. -/
def nextAccount : Op (Trial σ) Address := fun t =>
  (.ok (accountAddress t.test t.accounts), { t with accounts := t.accounts + 1 })

/-- Shows an application to the oracle. Of two deviations the one of the gas counts. -/
def observe (gas : Int64) (root : Cid) : Op (Trial σ) Unit := fun t =>
  let (seen, oracle) := t.oracle.observe gas root
  let t := { t with oracle, applies := t.applies + 1 }
  match t.checks.gas, seen.gas with
  | true, .mismatch expected actual =>
    deviate "gas used" (Numeral.ofInt expected.toInt) (Numeral.ofInt actual.toInt) t
  | _, _ =>
    match t.checks.stateRoot, seen.root with
    | true, .mismatch expected actual => deviate "state root" expected.text actual.text t
    | _, _ => (.ok (), t)

def expectExitCode (r : MessageResult) (expected : ExitCode) : Op (Trial σ) Unit := fun t =>
  if r.receipt.exitCode = expected ∨ ¬ t.checks.exitCode then (.ok (), t)
  else deviate "exit code" expected.toText r.receipt.exitCode.toText t

def expectReturn (r : MessageResult) (expected : Bytes) : Op (Trial σ) Unit := fun t =>
  if r.receipt.returnValue = expected ∨ ¬ t.checks.returnValue then (.ok (), t)
  else deviate "return value" (Hex.encode expected) (Hex.encode r.receipt.returnValue) t

variable (b : Binding σ)

/-- Creates an account with a new key address. -/
def newAccount (balance : TokenAmount) : Op (Trial σ) Address := do
  let key ← nextAccount
  let _ ← guarded (onVm (b.createActor .account key balance .emptyObject))
  pure key

def balance (a : Address) : Op (Trial σ) TokenAmount := do
  match ← onVm (b.actor a) with
  | some actor => pure actor.balance
  | none => throw (.ofMachine (.actorNotFound a))

/-- Applies something in the trial's context and has the oracle see it. -/
def application (apply : ExecutionContext → Op σ α) (gas : α → Int64) (root : α → Cid) :
    Op (Trial σ) α := do
  let ctx := (← get).context
  let r ← guarded (onVm (apply ctx))
  observe (gas r) (root r)
  pure r

def apply (m : Message) : Op (Trial σ) MessageResult :=
  application (b.message · m) (·.receipt.gasUsed) (·.root)

def applySigned (m : SignedMessage) : Op (Trial σ) MessageResult :=
  application (b.signed · m) (·.receipt.gasUsed) (·.root)

/-- The oracle sees the total gas of a tip-set. -/
def applyTipSet (blocks : List Block) (randomness : Randomness) : Op (Trial σ) TipSetResult :=
  application (fun ctx => b.tipSet blocks ctx.epoch randomness) (·.totalGasUsed) (·.root)

/-- A result that has to have an exit code. -/
def expecting (op : Op (Trial σ) MessageResult) (code : ExitCode) : Op (Trial σ) MessageResult := do
  let r ← op
  expectExitCode r code
  pure r

/-- Ends a trial: what was recorded is written, unless the trial failed. -/
def finish (t : Trial σ) (files : FileTree) : Except Failure Unit × FileTree :=
  if t.failed then (.ok (), files)
  else
    let (r, files) := t.oracle.finish files
    (r.mapError .ofFile, files)

/-- Lets go of a trial without asking what became of its recording. -/
def drop (t : Trial σ) (files : FileTree) : FileTree := (t.finish files).2

end Trial
end Conformance
