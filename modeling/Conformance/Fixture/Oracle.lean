import Conformance.Fixture.Writer

namespace Conformance.Fixture

inductive Mode
  | off
  | record
  | replay
  deriving DecidableEq, Repr

/-- A text that names no mode, in small letters. -/
structure ModeError where
  text : String
  deriving DecidableEq, Repr

def ModeError.message (e : ModeError) : String :=
  "unknown fixture mode '" ++ e.text ++ "' (expected off, record or replay)"

namespace Mode

def name : Mode → String
  | off => "off"
  | record => "record"
  | replay => "replay"

/-- Every word for a mode. -/
def words : List (String × Mode) :=
  [("off", off), ("none", off), ("disabled", off), ("record", record), ("replay", replay)]

/-- Blanks around the word and its case do not matter. -/
def parse (s : String) : Except ModeError Mode :=
  let word := Text.lowerAscii (Text.trim s)
  match words.lookup word with
  | some m => .ok m
  | none => .error ⟨word⟩

end Mode

/-- What comparing one value came to. -/
inductive Check (α : Type)
  /-- Nothing is compared in this run. -/
  | skipped
  | recorded
  | matched
  /-- Nothing was recorded at this position, which is no failure. -/
  | missing
  | mismatch (expected actual : α)
  deriving DecidableEq, Repr

namespace Check

def compare {α : Type} [DecidableEq α] (expected : Option α) (actual : α) : Check α :=
  match expected with
  | none => missing
  | some e => if e = actual then matched else mismatch e actual

def isMismatch {α : Type} : Check α → Bool
  | mismatch _ _ => true
  | _ => false

end Check

/-- The checks of one application. -/
structure Observation where
  gas : Check Int64
  root : Check Cid
  deriving DecidableEq, Repr

structure Recorder where
  test : String
  entry : Entry := {}
  deriving DecidableEq, Repr, Inhabited

namespace Recorder

def record (r : Recorder) (gas : Int64) (root : Cid) : Recorder :=
  { r with entry := r.entry.add gas root }

def finish (r : Recorder) (w : Writer) (files : FileTree) : Except FileError Unit × FileTree :=
  w.write r.test r.entry files

end Recorder

/-- Reads the entry of a test from its start, each list at a pace of its own. -/
structure Replayer where
  store : Store
  test : String
  gasRead : Nat := 0
  rootsRead : Nat := 0
  deriving DecidableEq, Inhabited

namespace Replayer

def entry? (r : Replayer) : Option Entry := r.store.get? r.test

/-- The next recorded gas. Without an entry there is nothing to move along. -/
def nextGas (r : Replayer) : Option Int64 × Replayer :=
  match r.entry? with
  | none => (none, r)
  | some e => (e.gas[r.gasRead]?, { r with gasRead := r.gasRead + 1 })

def nextRoot (r : Replayer) : Option Cid × Replayer :=
  match r.entry? with
  | none => (none, r)
  | some e => (e.roots[r.rootsRead]?, { r with rootsRead := r.rootsRead + 1 })

end Replayer

inductive Oracle
  | disabled
  | recording (recorder : Recorder) (writer : Writer)
  | replaying (replayer : Replayer)
  deriving Inhabited

namespace Oracle

/-- The oracle of a test. Only a replay looks at the store, and only a recording writes. -/
def ofMode (mode : Mode) (store : Store) (writer : Writer) (test : String) : Oracle :=
  match mode with
  | .off => disabled
  | .record => recording { test } writer
  | .replay => replaying { store, test }

def mode : Oracle → Mode
  | disabled => .off
  | recording _ _ => .record
  | replaying _ => .replay

/-- Takes what one application showed. -/
def observe (gas : Int64) (root : Cid) : Oracle → Observation × Oracle
  | disabled => (⟨.skipped, .skipped⟩, disabled)
  | recording r w => (⟨.recorded, .recorded⟩, recording (r.record gas root) w)
  | replaying r =>
    let (expectedGas, r) := r.nextGas
    let (expectedRoot, r) := r.nextRoot
    (⟨.compare expectedGas gas, .compare expectedRoot root⟩, replaying r)

/-- Writes a recording; in the other modes there is nothing to do. -/
def finish : Oracle → FileTree → Except FileError Unit × FileTree
  | recording r w, files => r.finish w files
  | _, files => (.ok (), files)

end Oracle
end Conformance.Fixture
