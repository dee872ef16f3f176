import Conformance.Failure
import Conformance.Fixture.Oracle
import Conformance.Rpc.Client

namespace Conformance

abbrev Variables := List (String × Bytes)

namespace Variables

/-- The value of a variable, if it is text. -/
def text? (vars : Variables) (key : String) : Option String :=
  (vars.lookup key).bind Bytes.utf8Text?

/-- The value as a reader takes it, without the blanks around it. -/
def read? {α : Type} (vars : Variables) (parse : String → Option α) (key : String) : Option α :=
  (vars.text? key).bind (fun s => parse (Text.trim s))

def readOr {α : Type} (vars : Variables) (parse : String → Option α) (key : String) (fallback : α) :
    α :=
  (vars.read? parse key).getD fallback

/-- The words for yes. -/
def yesWords : List String := ["1", "true", "yes", "on"]

/-- A flag is what its variable says, and every other word says no. No letter beyond ASCII has a
small form that stands in a word for yes. -/
def flagOr (vars : Variables) (key : String) (fallback : Bool) : Bool :=
  match vars.text? key with
  | some s => Text.lowerAscii (Text.trim s) ∈ yesWords
  | none => fallback

/-- The whole value, unless it is blank. -/
def textOr (vars : Variables) (key fallback : String) : String :=
  match vars.text? key with
  | some s => if Text.trim s = "" then fallback else s
  | none => fallback

/-- The parts between commas that are not blank. -/
def list (vars : Variables) (key : String) : List String :=
  match vars.text? key with
  | none => []
  | some s =>
    ((Text.splitAt ',' s.toList).map (fun cs => Text.trim (String.ofList cs))).filter (· ≠ "")

end Variables

/-- Where the machine under test runs. -/
inductive BindingKind
  | inProcess
  | rpc
  deriving DecidableEq, Repr

/-- A text that names no binding, in small letters. -/
structure BindingError where
  text : String
  deriving DecidableEq, Repr

def BindingError.message (e : BindingError) : String :=
  "unknown binding '" ++ e.text ++ "' (expected local or rpc)"

namespace BindingKind

def name : BindingKind → String
  | inProcess => "local"
  | rpc => "rpc"

/-- Every word for a binding. -/
def words : List (String × BindingKind) :=
  [("local", inProcess), ("in-process", inProcess), ("rpc", rpc), ("remote", rpc)]

/-- Blanks around the word and its case do not matter. -/
def parse (s : String) : Except BindingError BindingKind :=
  let word := Text.lowerAscii (Text.trim s)
  match words.lookup word with
  | some k => .ok k
  | none => .error ⟨word⟩

end BindingKind

structure Settings where
  host : String := "127.0.0.1"
  port : UInt16 := 8378
  /-- In milliseconds. -/
  timeout : UInt64 := 30000
  fixtureRoot : String := "fixtures"
  mode : Fixture.Mode := .replay
  binding : BindingKind := .inProcess
  deriving DecidableEq, Repr

namespace Settings

def hostKey : String := "CHAIN_VALIDATION_RPC_HOST"

def portKey : String := "CHAIN_VALIDATION_RPC_PORT"

def timeoutKey : String := "CHAIN_VALIDATION_RPC_TIMEOUT_MS"

def fixtureRootKey : String := "CHAIN_VALIDATION_FIXTURE_ROOT"

def modeKey : String := "CHAIN_VALIDATION_FIXTURE_MODE"

def bindingKey : String := "CHAIN_VALIDATION_BINDING"

def parsePort (s : String) : Option UInt16 := (Numeral.readUInt16 s.toList).toOption

/-- Names a variable whose value is refused. -/
def refused (key message : String) : Failure := (Failure.plain message).within ("invalid " ++ key)

def ofVariables (vars : Variables) : Except Failure Settings := do
  let mode ← (Fixture.Mode.parse (vars.textOr modeKey "replay")).mapError
    (fun e => refused modeKey e.message)
  let binding ← (BindingKind.parse (vars.textOr bindingKey "local")).mapError
    (fun e => refused bindingKey e.message)
  let defaults : Settings := {}
  pure
    { host := vars.textOr hostKey defaults.host
      port := vars.readOr parsePort portKey defaults.port
      timeout := vars.readOr (fun s => (Numeral.readUInt64 s.toList).toOption) timeoutKey
        defaults.timeout
      fixtureRoot := vars.textOr fixtureRootKey defaults.fixtureRoot
      mode, binding }

def endpoint (s : Settings) : String := Rpc.Client.endpointOf s.host s.port

end Settings
end Conformance
