import Conformance.Machine.Interface
import Conformance.Rpc.Server

namespace Conformance.Rpc

/-- What became of a posted request. -/
inductive Delivery
  /-- No connection came about. -/
  | refused (message : String)
  /-- The connection broke before there was a status. -/
  | broken (message : String)
  | timedOut (message : String)
  | rejected (status : UInt16) (body : String)
  /-- A reply as far as it reads. -/
  | reply (document : Json.Document)

/-- Delivers posted JSON to a peer with a state of its own. -/
abbrev Link (σ : Type) := Json → σ → Delivery × σ

namespace Link

/-- Nobody is there. -/
def refusing {σ : Type} (message : String) : Link σ := fun _ s => (.refused message, s)

/-- Delivers every request and every reply once and unchanged. -/
def lossless {σ : Type} (answer : Request → σ → Response × σ) : Link σ := fun json s =>
  match Request.codec.decode json with
  | .error e => (.rejected 422 e.message, s)
  | .ok r =>
    let (response, s) := answer r s
    (.reply { value := Response.codec.encode response }, s)

/-- Nothing is lost on the way to a server and back. -/
def direct {σ : Type} (server : Server σ) : Link (Option σ) := lossless server.dispatch

end Link

namespace Delivery

/-- A status from 400 on is a rejection. The body may have come in part only. -/
def ofHttp (status : UInt16) (body : String) (complete : Bool) : Delivery :=
  if 400 ≤ status then .rejected status (if complete then body else "")
  else
    let d := Json.read body
    .reply (if complete then d else { d with trailing := true })

end Delivery

structure Client where
  /-- Where requests are posted. -/
  url : String
  /-- In milliseconds. -/
  timeout : Nat
  deriving DecidableEq, Repr, Inhabited

namespace Client

/-- The client of an endpoint; slashes at its end do not matter. -/
def ofEndpoint (endpoint : String) (timeout : Nat) : Client where
  url := String.ofList (endpoint.toList.reverse.dropWhile (· = '/')).reverse ++ "/rpc"
  timeout := timeout

def endpointOf (host : String) (port : UInt16) : String :=
  "http://" ++ host ++ ":" ++ Numeral.ofNat port.toNat

/-- Digits after the point, without zeros at the end. -/
def decimals (thousandths : Nat) : List Char :=
  let digits := (Numeral.digits (1000 + thousandths)).drop 1
  (digits.reverse.dropWhile (· = '0')).reverse

/-- A duration in the greatest unit that it fills. -/
def durationText (milliseconds : Nat) : String :=
  if milliseconds = 0 then "0ns"
  else if milliseconds < 1000 then Numeral.ofNat milliseconds ++ "ms"
  else
    let part := decimals (milliseconds % 1000)
    Numeral.ofNat (milliseconds / 1000) ++
      (if part.isEmpty then "" else String.ofList ('.' :: part)) ++ "s"

/-- The client in words. -/
def describe (c : Client) : String :=
  "RpcClient \x7b url: " ++ Text.quoted c.url ++ ", timeout: " ++ durationText c.timeout ++ " \x7d"

/-- A peer, and the number of the next request to it. -/
structure Session (σ : Type) where
  peer : σ
  nextId : UInt64 := 1

variable {σ π ρ : Type}

/-- The result in a reply to a request. -/
def interpret (m : Method π ρ) (id : UInt64) (d : Json.Document) : Except Error ρ :=
  match Response.codec.decode d.value with
  | .error _ => .error (.decode m.name .envelope)
  | .ok response =>
    if d.trailing then .error (.decode m.name .envelope)
    else if response.id ≠ id then .error (.decode m.name (.foreignId response.id id))
    else
      match response.fault with
      | some fault => .error (.ofFault m.name fault)
      | none =>
        match m.result.ofOpaque (response.result.getD .null) with
        | .error e => .error (.decode m.name (.result e))
        | .ok result => .ok result

def outcome (c : Client) (m : Method π ρ) (id : UInt64) : Delivery → Except Error ρ
  | .refused message => .error (.connect c.url message)
  | .broken message => .error (.disconnected m.name message)
  | .timedOut message => .error (.timeout m.name message)
  | .rejected status body => .error (.http m.name status body)
  | .reply d => interpret m id d

/-- Makes a call. Its number is used up whatever becomes of it. -/
def call (c : Client) (link : Link σ) (m : Method π ρ) (params : π) (s : Session σ) :
    Except Error ρ × Session σ :=
  let request : Request := { id := s.nextId, method := m.name, params := m.params.store params }
  let (delivery, peer) := link (Request.codec.encode request) s.peer
  (c.outcome m s.nextId delivery, { peer, nextId := s.nextId + 1 })

/-- The settings of the server, asked for one by one. -/
def checks (c : Client) (link : Link σ) : ExceptT Error (StateM (Session σ)) Checks := do
  let gas ← c.call link .checkGas ()
  let exitCode ← c.call link .checkExitCode ()
  let returnValue ← c.call link .checkReturnValue ()
  let stateRoot ← c.call link .checkStateRoot ()
  let suites ← c.call link .suites ()
  pure { gas, exitCode, returnValue, stateRoot, suites }

end Client
end Conformance.Rpc
