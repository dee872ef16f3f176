import Conformance.Rpc.Server

namespace Conformance.Rpc

/-- The path that is served. -/
def path : String := "/rpc"

namespace Http

structure Request where
  body : String
  method : String := "POST"
  path : String := Rpc.path
  contentType : Option String := some "application/json"
  deriving DecidableEq, Repr

inductive Reply
  /-- The request was dispatched. -/
  | response (r : Response)
  | status (code : UInt16)

def isTokenChar (c : Char) : Bool := c.isAlphanum || "!#$&-^_.+".toList.contains c

/-- Whether a content type, parameters and case aside, is JSON or a kind built on JSON. -/
def isJson (contentType : String) : Bool :=
  let cs := (contentType.toList.takeWhile (· ≠ ';')).map Char.toLower
  let subtype := (Text.trimEnd cs).drop "application/".length
  "application/".toList.isPrefixOf cs && subtype.all isTokenChar &&
    (subtype == "json".toList ||
      ("+json".toList.isSuffixOf subtype && "+json".length < subtype.length))

/-- The part of a target before its query. -/
def target (path : String) : String := String.ofList (path.toList.takeWhile (· ≠ '?'))

/-- Answers an HTTP request. Path, method, content type and body are looked at in this order. -/
def serve {σ : Type} (server : Server σ) (r : Request) (s : Option σ) : Reply × Option σ :=
  if target r.path ≠ Rpc.path then (.status 404, s)
  else if r.method ≠ "POST" then (.status 405, s)
  else if !(r.contentType.any isJson) then (.status 415, s)
  else
    match Request.codec.read r.body with
    | .error e => (.status (if e.isTextual then 400 else 422), s)
    | .ok request =>
      let (response, s) := server.dispatch request s
      (.response response, s)

end Http
end Conformance.Rpc
