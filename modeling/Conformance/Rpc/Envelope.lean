import Conformance.Rpc.Error

namespace Conformance

namespace Codec

/-- A value as JSON in normal form. -/
def store {α : Type} (c : Codec α) (x : α) : Opaque :=
  (Opaque.ofJson? (c.encode x)).getD .null

end Codec

namespace Rpc

structure Request where
  id : UInt64
  method : String
  params : Opaque := .null

namespace Request

def codec : Codec Request :=
  .record "RpcRequest"
    (.required "id" .uint64 <| .required "method" .string <|
      .defaulted "params" .any .null .nil)
    (fun r => (r.id, r.method, r.params, ()))
    (fun (id, method, params, ()) => { id, method, params })

end Request

structure Response where
  id : UInt64
  result : Option Opaque := none
  fault : Option Fault := none

namespace Response

def codec : Codec Response :=
  .record "RpcResponse"
    (.required "id" .uint64 <| .sparse "result" .any <| .sparse "error" Fault.codec .nil)
    (fun r => (r.id, r.result, r.fault, ()))
    (fun (id, result, fault, ()) => { id, result, fault })

/-- The response to a request that was carried out or not. -/
def ofOutcome (id : UInt64) : Except Fault Opaque → Response
  | .ok result => { id, result := some result }
  | .error fault => { id, fault := some fault }

end Response
end Rpc
end Conformance
