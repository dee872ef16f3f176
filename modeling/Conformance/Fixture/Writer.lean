import Conformance.Fixture.Store

namespace Conformance.Fixture

/-- Writes below a folder; every file says that it was recorded at the writer's time. -/
structure Writer where
  root : Folder
  time : Instant
  deriving DecidableEq, Repr, Inhabited

namespace Writer

def folder (w : Writer) (c : Channel) : Folder := w.root.child c.folder

/-- The file of a test in a channel. -/
def file (w : Writer) (c : Channel) (test : String) : Folder := (w.folder c).child (fileName test)

def temp (w : Writer) (c : Channel) (test : String) : Folder := (w.folder c).child (tempName test)

def body (w : Writer) (test : String) (e : Entry) : Channel → FileBody
  | .gas => .json ((Record.codec Codec.int64).encode ⟨test, w.time, e.gas⟩)
  | .stateRoot => .json ((Record.codec Cid.codec).encode ⟨test, w.time, e.roots⟩)

/-- Writes the new content of a channel under another name. -/
def stage (w : Writer) (test : String) (e : Entry) (c : Channel) (files : FileTree) :
    Except FileError Unit × FileTree :=
  match files.createDirectories (w.folder c).path with
  | none => (.error (.createDirectory (w.folder c).shown), files)
  | some files =>
    match files.writeFile (w.temp c test).path (w.body test e c) with
    | none => (.error (.writeTemp (w.temp c test).shown), files)
    | some files => (.ok (), files)

/-- Removes what was staged. -/
def discard (w : Writer) (test : String) (cs : List Channel) (files : FileTree) : FileTree :=
  cs.foldl (fun files c => (files.removeFile (w.temp c test).path).getD files) files

/-- Stages channels in turn; when one fails those before it are discarded. -/
def stageAll (w : Writer) (test : String) (e : Entry) (staged : List Channel) :
    List Channel → FileTree → Except FileError Unit × FileTree
  | [], files => (.ok (), files)
  | c :: cs, files =>
    match w.stage test e c files with
    | (.error err, files) => (.error err, w.discard test staged files)
    | (.ok (), files) => w.stageAll test e (staged ++ [c]) cs files

/-- Puts staged channels in place in turn; when one fails it and those after it are discarded. -/
def commitAll (w : Writer) (test : String) : List Channel → FileTree →
    Except FileError Unit × FileTree
  | [], files => (.ok (), files)
  | c :: cs, files =>
    match files.renameFile (w.temp c test).path (w.file c test).path with
    | none =>
      (.error (.rename (w.temp c test).shown (w.file c test).shown), w.discard test (c :: cs) files)
    | some files => w.commitAll test cs files

/-- Replaces both files of a test. -/
def write (w : Writer) (test : String) (e : Entry) (files : FileTree) :
    Except FileError Unit × FileTree :=
  match w.stageAll test e [] Channel.all files with
  | (.error err, files) => (.error err, files)
  | (.ok (), files) => w.commitAll test Channel.all files

end Writer
end Conformance.Fixture
