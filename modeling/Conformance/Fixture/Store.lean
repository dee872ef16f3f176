import Conformance.Failure
import Conformance.FileTree
import Conformance.Fixture.Entry

namespace Conformance

instance : MapKey String where
  rank s := Bytes.nats (Bytes.utf8 s)
  rank_inj h := Bytes.utf8_inj.mp (Bytes.nats_inj h)

/-- A directory of a tree under the name that its user gives it. -/
structure Folder where
  shown : String
  path : Path := []
  deriving DecidableEq, Repr, Inhabited

/-- What lies in a folder under a name. -/
def Folder.child (f : Folder) (name : String) : Folder :=
  { shown := if f.shown.endsWith "/" then f.shown ++ name else f.shown ++ "/" ++ name
    path := f.path ++ [name] }

namespace Fixture

structure Store where
  /-- The folder that the entries were read from. -/
  root : Option Folder := none
  entries : SortedMap String Entry := .empty
  deriving DecidableEq, Inhabited

namespace Store

def get? (s : Store) (test : String) : Option Entry := s.entries.get? (sanitize test)

/-- The sanitized names of the tests, in order. -/
def tests (s : Store) : List String := s.entries.keys

def isEmpty (s : Store) : Bool := s.entries.entries.isEmpty

/-- Of two entries with one sanitized name the later stays. -/
def ofEntries (es : List (String × Entry)) : Store :=
  { entries := SortedMap.ofList (es.map (fun e => (sanitize e.1, e.2))) }

/-- The values of a file. -/
def readValues {α : Type} (value : Codec α) (files : FileTree) (file : Folder) :
    Except FileError (List α) :=
  match (files.readFile file.path).bind FileBody.document? with
  | none => .error (.read file.shown)
  | some d =>
    match (Record.codec value).decode d.value with
    | .error _ => .error (.malformed file.shown)
    | .ok r => if d.trailing then .error (.malformed file.shown) else .ok r.values

def readFiles {α : Type} (value : Codec α) (files : FileTree) (folder : Folder) :
    List String → Except FileError (List (String × List α))
  | [] => .ok []
  | name :: names =>
    match stem? name with
    | none => readFiles value files folder names
    | some stem =>
      match readValues value files (folder.child name) with
      | .error e => .error e
      | .ok values => (readFiles value files folder names).map ((stem, values) :: ·)

/-- The values of every file of a channel with the extension `json`, by the stem of its name. A
folder that is not there holds none. -/
def readChannel {α : Type} (value : Codec α) (files : FileTree) (root : Folder) (c : Channel) :
    Except FileError (List (String × List α)) :=
  let folder := root.child c.folder
  if files.isDirectory folder.path then
    readFiles value files folder (files.children folder.path)
  else .ok []

/-- Changes the entry of a name, which is empty if there was none. -/
def update (m : SortedMap String Entry) (name : String) (change : Entry → Entry) :
    SortedMap String Entry :=
  m.insert name (change ((m.get? name).getD {}))

/-- Every entry below a folder. One file that cannot be read spoils the store. -/
def load (files : FileTree) (root : Folder) : Except FileError Store :=
  match readChannel Codec.int64 files root .gas with
  | .error e => .error e
  | .ok gas =>
    match readChannel Cid.codec files root .stateRoot with
    | .error e => .error e
    | .ok roots =>
      let entries := gas.foldl (fun m (name, gas) => update m name (fun e => { e with gas })) .empty
      let entries :=
        roots.foldl (fun m (name, roots) => update m name (fun e => { e with roots })) entries
      .ok { root := some root, entries }

end Store
end Fixture
end Conformance
