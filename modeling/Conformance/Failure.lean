import Conformance.Machine.Error
import Conformance.Rpc.Error

namespace Conformance

namespace Fixture

/-- Why the files of recorded values cannot be read or written. Paths are as given by the user. -/
inductive FileError
  | read (path : String)
  | list (path : String)
  | createDirectory (path : String)
  | writeTemp (path : String)
  | rename (source target : String)
  /-- A file holds no recorded values. -/
  | malformed (path : String)
  deriving DecidableEq, Repr

def FileError.message : FileError → String
  | read p => "Failed to read " ++ p
  | list p => "Failed to list " ++ p
  | createDirectory p => "Failed to create directory " ++ p
  | writeTemp p => "Failed to write temp file " ++ p
  | rename s t => "Failed to rename " ++ s ++ " to " ++ t
  | malformed p => "malformed fixture file " ++ p

end Fixture

inductive Cause
  /-- The test itself could not be set up. -/
  | setup (message : String)
  /-- An output differs from the expected one. -/
  | mismatch (what expected actual : String)
  | rpc (error : Rpc.Error)
  | machine (error : Machine.Error)
  | file (error : Fixture.FileError)
  | plain (message : String)
  deriving DecidableEq, Repr

def Cause.message : Cause → String
  | setup m => "test setup failed: " ++ m
  | mismatch what expected actual =>
    "conformance mismatch in " ++ what ++ ": expected " ++ expected ++ ", got " ++ actual
  | rpc e => e.message
  | machine e => e.message
  | file e => e.message
  | plain m => m

inductive FailureKind
  /-- The machine under test was not reached. -/
  | transport
  /-- The test is at fault. -/
  | setup
  /-- The machine ran and gave a wrong output. -/
  | conformance
  /-- The machine reported an error in place of an output. -/
  | sut
  deriving DecidableEq, Repr

namespace FailureKind

def name : FailureKind → String
  | transport => "transport"
  | setup => "setup"
  | conformance => "conformance"
  | sut => "sut"

/-- Whether the machine's behaviour was looked at. -/
def exercisedSut : FailureKind → Bool
  | conformance => true
  | sut => true
  | _ => false

def ofRpc : Rpc.Error → FailureKind
  | .remote _ _ => sut
  | .decode _ _ => setup
  | .protocol _ _ => setup
  | _ => transport

end FailureKind

/-- The kind that a cause has by its type. The machine's own errors have none. -/
def Cause.kind? : Cause → Option FailureKind
  | setup _ => some .setup
  | mismatch _ _ _ => some .conformance
  | rpc e => some (.ofRpc e)
  | machine _ | file _ | plain _ => none

/-- A link in the chain from the outermost context of a failure to its cause. -/
inductive ChainLink
  | context (text : String)
  | cause (cause : Cause)
  deriving DecidableEq, Repr

def ChainLink.kind? : ChainLink → Option FailureKind
  | context _ => none
  | cause c => c.kind?

structure Failure where
  cause : Cause
  /-- What was going on, outermost first. -/
  contexts : List String := []
  deriving DecidableEq, Repr

namespace Failure

def ofMachine (e : Machine.Error) : Failure := { cause := .machine e }

def ofRpc (e : Rpc.Error) : Failure := { cause := .rpc e }

def ofFile (e : Fixture.FileError) : Failure := { cause := .file e }

def setup (message : String) : Failure := { cause := .setup message }

def plain (message : String) : Failure := { cause := .plain message }

def mismatch (what expected actual : String) : Failure :=
  { cause := .mismatch what expected actual }

/-- The failure as seen from further out. -/
def within (context : String) (f : Failure) : Failure :=
  { f with contexts := context :: f.contexts }

def chain (f : Failure) : List ChainLink := f.contexts.map .context ++ [.cause f.cause]

/-- The first link with a kind decides. Where there is none, the machine is to blame. -/
def kind (f : Failure) : FailureKind := (f.chain.findSome? (·.kind?)).getD .sut

/-- All texts of the failure, outermost first. -/
def links (f : Failure) : List String := f.contexts ++ [f.cause.message]

def outermost (f : Failure) : String := f.links.headD ""

/-- The whole chain in one line. -/
def toText (f : Failure) : String := ": ".intercalate f.links

/-- Whether an overflow stopped the run, in which case nothing noticed the failure. -/
def isOverflow (f : Failure) : Bool :=
  match f.cause with
  | .machine e => e.isOverflow
  | _ => false

end Failure
end Conformance
