import Conformance.Trial

namespace Conformance.Trial

/-- A step, by the type of what it gives. -/
inductive Step : Type → Type 1
  /-- A call of the machine, past the oracle. -/
  | vm {α : Type} (c : Vm.Call α) : Step α
  | newAccount (balance : TokenAmount) : Step Address
  | balance (a : Address) : Step TokenAmount
  | defaults : Step MessageDefaults
  | resolve (options : List MessageOption) : Step MessageSettings
  | transfer (recipient sender : Address) (options : List MessageOption) : Step Message
  | build (recipient sender : Address) (method : UInt64) (params : Bytes)
      (options : List MessageOption) : Step Message
  | messages : Step (List Message)
  | apply (m : Message) (expected : Option ExitCode) : Step MessageResult
  | applySigned (m : SignedMessage) (expected : Option ExitCode) : Step MessageResult
  | applyTipSet (blocks : List Block) (randomness : Randomness) : Step TipSetResult
  | expectExitCode (r : MessageResult) (expected : ExitCode) : Step Unit
  | expectReturn (r : MessageResult) (expected : Bytes) : Step Unit
  | advanceEpoch (step : Int64) : Step Int64
  | context : Step ExecutionContext
  | test : Step String
  | markFailed : Step Unit

/-- Looks at a trial. -/
def view {σ α : Type} (f : Trial σ → α) : Op (Trial σ) α := fun t => (.ok (f t), t)

/-- An application with the exit code it has to have, if any. -/
def applied {σ : Type} (op : Op (Trial σ) MessageResult) :
    Option ExitCode → Op (Trial σ) MessageResult
  | none => op
  | some code => expecting op code

def Step.run {σ α : Type} (b : Binding σ) : Step α → Op (Trial σ) α
  | .vm c => onVm (b.toVm.call c)
  | .newAccount amount => Trial.newAccount b amount
  | .balance a => Trial.balance b a
  | .defaults => view (·.producer.defaults)
  | .resolve options => view (·.producer.resolve options)
  | .transfer recipient sender options => Trial.transfer recipient sender options
  | .build recipient sender method params options =>
    produce (·.build recipient sender method params options)
  | .messages => view (·.producer.built)
  | .apply m expected => applied (Trial.apply b m) expected
  | .applySigned m expected => applied (Trial.applySigned b m) expected
  | .applyTipSet blocks randomness => Trial.applyTipSet b blocks randomness
  | .expectExitCode r expected => Trial.expectExitCode r expected
  | .expectReturn r expected => Trial.expectReturn r expected
  | .advanceEpoch step => Trial.advanceEpoch step
  | .context => view Trial.context
  | .test => view Trial.test
  | .markFailed => Trial.markFailed

/-- What a test does: it ends in a result, or takes a step and goes on by what that gave. -/
inductive Program (α : Type) : Type 1
  | done (result : Except Failure α)
  | step {β : Type} (s : Step β) (next : Except Failure β → Program α)

namespace Program
variable {α β : Type}

/-- Goes on after a program that succeeds. -/
def bind : Program α → (α → Program β) → Program β
  | done (.ok x), f => f x
  | done (.error e), _ => done (.error e)
  | step s next, f => step s (fun r => (next r).bind f)

instance : Monad Program where
  pure x := done (.ok x)
  bind := bind

/-- A step that the program does not go on without. -/
def perform (s : Step α) : Program α := step s done

def fail (f : Failure) : Program α := done (.error f)

/-- Runs a program. An overflow ends it at once. -/
def run {σ : Type} (b : Binding σ) : Program α → Op (Trial σ) α
  | done r => fun t => (r, t)
  | step s next => fun t =>
    match s.run b t with
    | (.ok x, t) => (next (.ok x)).run b t
    | (.error e, t) => if e.isOverflow then (.error e, t) else (next (.error e)).run b t

end Program
end Conformance.Trial
