import Conformance.Rpc.Remote
import Conformance.Sandbox.Apply
import Conformance.Scenario
import Conformance.Settings

namespace Conformance

/-- What the scenarios of a run share about recorded values. -/
structure FixtureSource where
  mode : Fixture.Mode
  writer : Fixture.Writer
  store : Fixture.Store := {}

namespace FixtureSource

/-- Recorded values are read only to be replayed. -/
def ofMode (mode : Fixture.Mode) (writer : Fixture.Writer) (files : FileTree) :
    Except Failure FixtureSource :=
  match mode with
  | .replay =>
    match Fixture.Store.load files writer.root with
    | .ok store => .ok { mode, writer, store }
    | .error e => .error ((Failure.ofFile e).within ("loading fixtures from " ++ writer.root.shown))
  | _ => .ok { mode, writer }

def oracle (f : FixtureSource) (test : String) : Fixture.Oracle :=
  .ofMode f.mode f.store f.writer test

end FixtureSource

inductive Verdict
  | passed
  /-- The checks leave the suite out. -/
  | skipped
  deriving DecidableEq, Repr

def Verdict.name : Verdict → String
  | passed => "passed"
  | skipped => "skipped"

/-- What scenarios act upon: the files, and the peer behind the link. -/
structure Surroundings (π : Type) where
  files : FileTree
  peer : π

namespace Scenario
variable {σ π : Type}

/-- Runs a scenario as a trial on a machine and ends the trial. -/
def drive (s : Scenario) (b : Binding σ) (vm : σ) (checks : Checks) (fixtures : FixtureSource)
    (test : String) (files : FileTree) : Except Failure Verdict × σ × FileTree :=
  if !checks.enables s.suite then (.ok .skipped, vm, files)
  else
    let t : Trial σ := { test, checks, vm, oracle := fixtures.oracle test }
    match s.program.run b t with
    | (.ok (), t) =>
      let (r, files) := t.finish files
      (r.map (fun _ => .passed), t.vm, files)
    | (.error e, t) => (.error (e.within ("scenario '" ++ s.name ++ "' failed")), t.vm, files)

/-- Runs a scenario on a new machine in place. -/
def runInPlace (s : Scenario) (fixtures : FixtureSource) (test : String) (files : FileTree) :
    Except Failure Verdict × FileTree :=
  let (r, _, files) := s.drive Sandbox.machine.binding {} {} fixtures test files
  (r, files)

/-- Runs a scenario on a new machine of the peer, with the checks that the peer wants. -/
def runRemote (s : Scenario) (client : Rpc.Client) (link : Rpc.Link π) (fixtures : FixtureSource)
    (test : String) (around : Surroundings π) : Except Failure Verdict × Surroundings π :=
  match client.checks link { peer := around.peer } with
  | (.error e, session) =>
    (.error ((Failure.ofRpc e).within "fetching validation config"),
     { around with peer := session.peer })
  | (.ok checks, session) =>
    if !checks.enables s.suite then (.ok .skipped, { around with peer := session.peer })
    else
      match Rpc.Remote.start client link (some (sanitize test)) session with
      | (.error e, session) =>
        (.error ((Failure.ofRpc e).within "creating remote VM"),
         { around with peer := session.peer })
      | (.ok vm, _) =>
        let (r, vm, files) :=
          s.drive (Rpc.Remote.binding client link) vm checks fixtures test around.files
        (r, { files, peer := vm.session.peer })

/-- The server of a run of its own. -/
def ownServer : Rpc.Server Sandbox := { machine := Sandbox.machine, fresh := {} }

/-- Runs a scenario on a server that serves nothing else. -/
def runLoopback (s : Scenario) (fixtures : FixtureSource) (test : String) (files : FileTree) :
    Except Failure Verdict × FileTree :=
  let client := Rpc.Client.ofEndpoint "http://127.0.0.1" 30000
  let (r, around) :=
    s.runRemote client (.direct ownServer) fixtures test { files, peer := none }
  (r, around.files)

end Scenario

/-- Where scenarios are run. -/
inductive Target (π : Type)
  | inPlace
  | remote (client : Rpc.Client) (link : Rpc.Link π)
  | loopback

namespace Target
variable {π : Type}

def run (target : Target π) (s : Scenario) (fixtures : FixtureSource) (test : String)
    (around : Surroundings π) : Except Failure Verdict × Surroundings π :=
  match target with
  | inPlace =>
    let (r, files) := s.runInPlace fixtures test around.files
    (r, { around with files })
  | remote client link => s.runRemote client link fixtures test around
  | loopback =>
    let (r, files) := s.runLoopback fixtures test around.files
    (r, { around with files })

/-- Runs scenarios one after the other, each under the name of its own test. -/
def runAll (target : Target π) (fixtures : FixtureSource) :
    List Scenario → Surroundings π → List (String × Except Failure Verdict) × Surroundings π
  | [], around => ([], around)
  | s :: rest, around =>
    let (r, around) := target.run s fixtures s.testName around
    let (results, around) := runAll target fixtures rest around
    ((s.name, r) :: results, around)

end Target
end Conformance
