import Conformance.CommandLine
import Conformance.Runner

namespace Conformance.Main

/-- Settings that the command line leaves to the variables of the process. -/
def environment : IO Variables :=
  [Settings.hostKey, Settings.portKey].filterMapM fun key => do
    return (← IO.getEnv key).map fun value => (key, Bytes.utf8 value)

/-- Where the server is found. -/
def endpoint (c : CommandLine) (vars : Variables) : String :=
  let defaults : Settings := {}
  Rpc.Client.endpointOf (c.host.getD (vars.textOr Settings.hostKey defaults.host))
    (c.port.getD (vars.readOr Settings.parsePort Settings.portKey defaults.port))

/-- Answers a line; one that is no request has no answer. -/
def answerLine (server : Rpc.Server Sandbox) (line : String) (s : Option Sandbox) :
    Option String × Option Sandbox :=
  match Rpc.Request.codec.read line with
  | .error _ => (none, s)
  | .ok r =>
    let (response, s) := server.dispatch r s
    (some (Rpc.Response.codec.encode response).render, s)

partial def serve (server : Rpc.Server Sandbox) (s : Option Sandbox) : IO Unit := do
  let line ← (← IO.getStdin).getLine
  if line.isEmpty then return
  let (answer, s) := answerLine server line s
  let output ← IO.getStdout
  output.putStrLn (answer.getD "")
  output.flush
  serve server s

def start (c : CommandLine) (checks : Checks) : IO Unit := do
  IO.eprintln ("serving the sandbox for " ++ endpoint c (← environment))
  serve { Scenario.ownServer with checks } none

end Conformance.Main

open Conformance in
def main (args : List String) : IO UInt32 := do
  match CommandLine.parse args with
  | .error r =>
    IO.eprintln r.name
    return if r = .displayHelp ∨ r = .displayVersion then 0 else 2
  | .ok c =>
    match c.checks with
    | .error f =>
      IO.eprintln f.toText
      return 1
    | .ok checks =>
      Main.start c checks
      return 0
