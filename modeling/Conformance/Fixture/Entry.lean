import Conformance.Cid
import Conformance.Instant

namespace Conformance

def isPlain (c : Char) : Bool :=
  ('0' ≤ c && c ≤ '9') || ('A' ≤ c && c ≤ 'Z') || ('a' ≤ c && c ≤ 'z')

/-- Of a test's name only ASCII letters and digits are kept. -/
def sanitize (name : String) : String := String.ofList (name.toList.filter isPlain)

/-- The name of a test that runs on a thread of the given name. -/
def testNameOf : Option String → String
  | some name => if name = "main" then "unnamed" else name
  | none => "unnamed"

namespace Fixture

inductive Channel
  | gas
  | stateRoot
  deriving DecidableEq, Repr

namespace Channel

def all : List Channel := [gas, stateRoot]

/-- The directory that holds the files of a channel. -/
def folder : Channel → String
  | gas => "gas"
  | stateRoot => "state_root"

end Channel

/-- Everything recorded for one test; the lists go by position. -/
structure Entry where
  gas : List Int64 := []
  roots : List Cid := []
  deriving DecidableEq, Repr, Inhabited

namespace Entry

def isEmpty (e : Entry) : Bool := e.gas.isEmpty && e.roots.isEmpty

/-- The entry after one more application. -/
def add (e : Entry) (gas : Int64) (root : Cid) : Entry :=
  { gas := e.gas ++ [gas], roots := e.roots ++ [root] }

end Entry

/-- What a file of a channel says. -/
structure Record (α : Type) where
  test : String
  recordedAt : Instant
  values : List α
  deriving DecidableEq, Repr

namespace Record

def codec {α : Type} (value : Codec α) : Codec (Record α) :=
  .record "FixtureFile"
    (.required "test" .string <| .required "recorded_at" Instant.codec <|
      .required "values" value.list .nil)
    (fun r => (r.test, r.recordedAt, r.values, ()))
    (fun (test, recordedAt, values, ()) => { test, recordedAt, values })

end Record

/-- The file of a test. -/
def fileName (test : String) : String := sanitize test ++ ".json"

/-- The file that is written first and then takes the place of the file of a test. An empty stem
makes the name hidden, and then it has no extension to give up. -/
def tempName (test : String) : String :=
  let stem := sanitize test
  if stem = "" then ".json.json.tmp" else stem ++ ".json.tmp"

/-- The stem of a file name with the extension `json`. -/
def stem? (name : String) : Option String :=
  let cs := name.toList
  let extension := ".json".toList
  if extension.isSuffixOf cs ∧ extension.length < cs.length then
    some (String.ofList (cs.take (cs.length - extension.length)))
  else none

end Fixture
end Conformance
