import Conformance.Json.Reader
import Conformance.SortedMap
import Conformance.Bytes

namespace Conformance

/-- The names on the way down from the directory. -/
abbrev Path := List String

namespace Path

/-- The path of a text in which slashes stand between the names. -/
def ofText (s : String) : Path := (s.splitOn "/").filter (fun n => n ≠ "" ∧ n ≠ ".")

def toText (p : Path) : String := "/".intercalate p

/-- A name ends in a zero, and all its bytes count one more, so that no name runs into the next. -/
def rankName (name : String) : List Nat := (Bytes.utf8 name).map (fun b => b.toNat + 1) ++ [0]

theorem rankName_append_inj {m n : String} {a b : List Nat}
    (h : rankName m ++ a = rankName n ++ b) : m = n ∧ a = b := by
  have key : ∀ x y : Bytes, x.map (fun b => b.toNat + 1) ++ 0 :: a =
      y.map (fun b => b.toNat + 1) ++ 0 :: b → x = y ∧ a = b := by
    intro x
    induction x with
    | nil =>
      intro y hy
      cases y with
      | nil => simpa using hy
      | cons c cs => simp at hy
    | cons d ds ih =>
      intro y hy
      cases y with
      | nil => simp at hy
      | cons c cs =>
        simp only [List.map_cons, List.cons_append, List.cons.injEq, Nat.add_right_cancel_iff] at hy
        obtain ⟨hds, hab⟩ := ih cs hy.2
        exact ⟨by rw [UInt8.toNat_inj.mp hy.1, hds], hab⟩
  obtain ⟨hname, hrest⟩ := key _ _ (by simpa [rankName] using h)
  exact ⟨Bytes.utf8_inj.mp hname, hrest⟩

theorem rank_inj {p q : Path} (h : p.flatMap rankName = q.flatMap rankName) : p = q := by
  induction p generalizing q with
  | nil =>
    cases q with
    | nil => rfl
    | cons n ns => simp [rankName] at h
  | cons m ms ih =>
    cases q with
    | nil => simp [rankName] at h
    | cons n ns =>
      simp only [List.flatMap_cons] at h
      obtain ⟨hname, hrest⟩ := rankName_append_inj h
      rw [hname, ih hrest]

/-- What lies in a directory comes right after it. -/
instance : MapKey Path where
  rank p := p.flatMap rankName
  rank_inj h := rank_inj h

end Path

/-- What a file holds: bytes, or a JSON value, which stands for its text. -/
inductive FileBody
  | bytes (data : Bytes)
  | json (v : Json)
  deriving Inhabited

namespace FileBody

/-- What the file says as JSON; nothing if it is no text. -/
def document? : FileBody → Option Json.Document
  | bytes data => (Bytes.utf8Text? data).map Json.read
  | json v => some { value := v }

/-- The JSON value that the file holds and nothing else. -/
def json? (body : FileBody) : Option Json := do
  let d ← body.document?
  if d.trailing then none else d.value.normalize

end FileBody

inductive FileEntry
  | file (body : FileBody)
  | directory
  deriving Inhabited

/-- The entries below a directory, which itself is always there. Operations fail where something is in
their way, and then change nothing. -/
structure FileTree where
  entries : SortedMap Path FileEntry := .empty

namespace FileTree

instance : Inhabited FileTree := ⟨{}⟩

def get? (t : FileTree) (p : Path) : Option FileEntry :=
  if p = [] then some .directory else t.entries.get? p

def isDirectory (t : FileTree) (p : Path) : Bool :=
  match t.get? p with
  | some .directory => true
  | _ => false

def put (t : FileTree) (p : Path) (e : FileEntry) : FileTree :=
  { t with entries := t.entries.insert p e }

/-- The paths from the directory down to this one. -/
def above (p : Path) : List Path := (List.range (p.length + 1)).map p.take

/-- Makes a directory and those above it, unless a file is in the way. -/
def createDirectories (t : FileTree) (p : Path) : Option FileTree :=
  (above p).foldlM
    (fun t q =>
      match t.get? q with
      | some .directory => some t
      | some (.file _) => none
      | none => some (t.put q .directory)) t

/-- Writes a whole file into a directory that is there. -/
def writeFile (t : FileTree) (p : Path) (body : FileBody) : Option FileTree :=
  if t.isDirectory p then none
  else if t.isDirectory p.dropLast then some (t.put p (.file body))
  else none

def readFile (t : FileTree) (p : Path) : Option FileBody :=
  match t.get? p with
  | some (.file body) => some body
  | _ => none

def removeFile (t : FileTree) (p : Path) : Option FileTree :=
  match t.get? p with
  | some (.file _) => some { t with entries := t.entries.erase p }
  | _ => none

/-- Moves a file, in place of a file that was there. -/
def renameFile (t : FileTree) (source target : Path) : Option FileTree := do
  let body ← t.readFile source
  let t ← t.removeFile source
  t.writeFile target body

/-- The names in a directory, in order. -/
def children (t : FileTree) (dir : Path) : List String :=
  t.entries.keys.filterMap (fun p =>
    if p ≠ [] ∧ p.dropLast = dir then p.getLast? else none)

/-- Removes what lies at a path and all below it. -/
def removeAll (t : FileTree) (p : Path) : FileTree :=
  { entries := SortedMap.ofList (t.entries.entries.filter (fun e => ¬ p.isPrefixOf e.1)) }

end FileTree
end Conformance
