import Conformance.Machine.Walk
import Conformance.Rpc.Method

namespace Conformance.Rpc

/-- Carries out the requests for one method. -/
structure Handler (σ : Type) where
  method : String
  handle : Opaque → σ → Except Fault Opaque × σ

/-- What a server needs of the system it serves: to start a virtual machine on request, and to carry
out every call on the current one. -/
structure Backend (β : Type) extends Vm β where
  /-- Starts a new machine, for a test if one is named. -/
  newVm : Option String → Op β Unit
  applyMessage : ExecutionContext → Message → Op β MessageResult
  applySigned : ExecutionContext → SignedMessage → Op β MessageResult
  applyTipSet : Int64 → List Block → Randomness → Op β TipSetResult

/-- A machine that is served, and which outputs the server wants compared. -/
structure Server (σ : Type) where
  machine : Machine σ
  /-- The state of a new machine. -/
  fresh : σ
  checks : Checks := {}

namespace Server
variable {σ : Type}

/-- The fault of a failure of the machine. An overflow leaves no report. -/
def faultOf (e : Failure) : Fault :=
  if e.isOverflow then { kind := .internal, message := "the machine stopped" }
  else { kind := .backend, message := e.toText }

/-- Serves a method. Parameters that do not have its shape leave the state alone. -/
def handler {τ π ρ : Type} (m : Method π ρ) (f : π → Op τ ρ) : Handler τ where
  method := m.name
  handle params s :=
    match m.params.ofOpaque params with
    | .error e => (.error { kind := .invalidParams, message := e.message }, s)
    | .ok p =>
      match f p s with
      | (.ok r, s) => (.ok (m.result.store r), s)
      | (.error e, s) => (.error (faultOf e), s)

/-- A step on the current machine, if there is one. -/
def onCurrent {α : Type} (op : Op σ α) : Op (Option σ) α
  | some s =>
    let (r, s) := op s
    (r, some s)
  | none => (.error (.plain "no current VM; call VMWrapper.NewVM first"), none)

end Server

namespace Backend
variable {β : Type} (b : Backend β) (checks : Checks)

/-- Calls of the machine. -/
def calls : List (Handler β) :=
  [Server.handler .newVm b.newVm,
   Server.handler .root (fun () => b.root),
   Server.handler .storeGet b.storeGet,
   Server.handler .storePut b.storePut,
   Server.handler .actor b.actor,
   Server.handler .setActorState (fun (a, balance, head) => b.setActorState a balance head),
   Server.handler .createActor (fun (code, a, balance, head) => b.createActor code a balance head),
   Server.handler .applyMessage (fun (ctx, m) => b.applyMessage ctx m),
   Server.handler .applySigned (fun (ctx, m) => b.applySigned ctx m),
   Server.handler .applyTipSet (fun (epoch, blocks, randomness) =>
     b.applyTipSet epoch blocks randomness)]

/-- Questions about the settings. -/
def settings : List (Handler β) :=
  [Server.handler .checkGas (fun () => pure checks.gas),
   Server.handler .checkExitCode (fun () => pure checks.exitCode),
   Server.handler .checkReturnValue (fun () => pure checks.returnValue),
   Server.handler .checkStateRoot (fun () => pure checks.stateRoot),
   Server.handler .suites (fun () => pure checks.suites)]

def handlers : List (Handler β) := b.calls ++ settings checks

def carryOut (r : Request) (s : β) : Except Fault Opaque × β :=
  match (b.handlers checks).find? (·.method = r.method) with
  | some h => h.handle r.params s
  | none => (.error { kind := .unknownMethod, message := "unknown method '" ++ r.method ++ "'" }, s)

/-- Answers a request. -/
def dispatch (r : Request) (s : β) : Response × β :=
  let (outcome, s) := b.carryOut checks r s
  (.ofOutcome r.id outcome, s)

end Backend

namespace Server
variable {σ : Type} (server : Server σ)

/-- The machine as a backend; its state is the current machine, if there is one. -/
def backend : Backend (Option σ) :=
  let b := server.machine.binding
  { root := onCurrent b.root
    storeGet := fun cid => onCurrent (b.storeGet cid)
    storePut := fun data => onCurrent (b.storePut data)
    actor := fun a => onCurrent (b.actor a)
    setActorState := fun a balance head => onCurrent (b.setActorState a balance head)
    createActor := fun code a balance head => onCurrent (b.createActor code a balance head)
    newVm := fun _ _ => (.ok (), some server.fresh)
    applyMessage := fun ctx m => onCurrent (b.message ctx m)
    applySigned := fun ctx m => onCurrent (b.signed ctx m)
    applyTipSet := fun epoch blocks randomness => onCurrent (b.tipSet blocks epoch randomness) }

/-- Answers a request with the current machine, if there is one. -/
def dispatch (r : Request) (s : Option σ) : Response × Option σ :=
  server.backend.dispatch server.checks r s

end Server
end Conformance.Rpc
