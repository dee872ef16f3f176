import Conformance.Json.Codec

namespace Conformance.Rpc

inductive FaultKind
  /-- The method is not served. -/
  | unknownMethod
  /-- The parameters do not have the shape the method takes. -/
  | invalidParams
  /-- The machine reported an error. -/
  | backend
  /-- The server failed outside the machine. -/
  | internal
  deriving DecidableEq, Repr

namespace FaultKind

def name : FaultKind → String
  | unknownMethod => "UnknownMethod"
  | invalidParams => "InvalidParams"
  | backend => "Backend"
  | internal => "Internal"

def codec : Codec FaultKind :=
  .choice [("UnknownMethod", unknownMethod), ("InvalidParams", invalidParams),
    ("Backend", backend), ("Internal", internal)] name

end FaultKind

structure Fault where
  kind : FaultKind
  message : String
  deriving DecidableEq, Repr

namespace Fault

def toText (f : Fault) : String := f.kind.name ++ ": " ++ f.message

def codec : Codec Fault :=
  .record "RpcFault" (.required "kind" FaultKind.codec <| .required "message" .string .nil)
    (fun f => (f.kind, f.message, ()))
    (fun (kind, message, ()) => { kind, message })

end Fault

/-- What is wrong with a reply that arrived. -/
inductive ReplyFlaw
  /-- It is no reply at all. -/
  | envelope
  | foreignId (reply request : UInt64)
  /-- Its result does not have the shape asked for. -/
  | result (cause : Json.DecodeError)
  | described (message : String)
  deriving DecidableEq, Repr

def ReplyFlaw.message : ReplyFlaw → String
  | envelope => "not a reply"
  | foreignId reply request =>
    "reply id " ++ Numeral.ofNat reply.toNat ++ " does not match request id " ++
      Numeral.ofNat request.toNat
  | result e => e.message
  | described m => m

inductive Error
  /-- No connection came about. -/
  | connect (endpoint message : String)
  /-- The connection broke before the reply was complete. -/
  | disconnected (method message : String)
  | timeout (method message : String)
  /-- The reply's status is that of a failure. -/
  | http (method : String) (status : UInt16) (body : String)
  | decode (method : String) (flaw : ReplyFlaw)
  /-- The server rejected the call itself. -/
  | protocol (method : String) (fault : Fault)
  /-- The machine behind the server reported an error. -/
  | remote (method message : String)
  deriving DecidableEq, Repr

namespace Error

/-- A backend fault comes from the machine, every other from the server. -/
def ofFault (method : String) (fault : Fault) : Error :=
  match fault.kind with
  | .backend => .remote method fault.message
  | _ => .protocol method fault

/-- Whether the machine was never reached. -/
def isTransport : Error → Bool
  | remote _ _ => false
  | _ => true

def isTimeout : Error → Bool
  | timeout _ _ => true
  | _ => false

def message : Error → String
  | connect endpoint m => "RPC connect to " ++ endpoint ++ " failed: " ++ m
  | disconnected method m => "RPC " ++ method ++ " lost its connection: " ++ m
  | timeout method m => "RPC " ++ method ++ " timed out: " ++ m
  | http method status body =>
    "RPC " ++ method ++ " returned HTTP " ++ Numeral.ofNat status.toNat ++ ": " ++ body
  | decode method flaw => "RPC " ++ method ++ " reply malformed: " ++ flaw.message
  | protocol method fault => "RPC " ++ method ++ " rejected: " ++ fault.toText
  | remote method m => "VM error in " ++ method ++ ": " ++ m

end Error
end Conformance.Rpc
