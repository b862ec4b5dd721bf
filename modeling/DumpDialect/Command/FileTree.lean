import DumpDialect.Command.FileName
import DumpDialect.Command.Host

/-!
# A file tree as a value

`Desk` is a machine small enough to be a value: a tree of directories and files with a working
directory in it, what stands on standard input, and what was written to the other streams.
`Host (StateM Desk)` lets the command run on it.

A file name is followed name by name (`FileTree.walk`). What a name leads on from must be a
directory, even if the name is `.` or `..`.
-/

namespace DumpDialect

/-- A place: the names that lead to it from the root. -/
abbrev Path := List Text

/-- The directories at the root of a usual machine. -/
def rootFolders : List Path :=
  (["bin", "boot", "dev", "etc", "home", "lib", "media", "mnt", "opt", "proc", "root", "run",
    "sbin", "srv", "sys", "tmp", "usr", "var"] : List Text).map ([·])

/-- The file that stays empty whatever is written to it. -/
def nullDevice : Path := ["dev", "null"]

/-- Directories and files, with the working directory. A file has its bytes. -/
structure FileTree where
  home : Path := ["tmp", "work"]
  folders : List Path := home :: rootFolders
  files : List (Path × List UInt8) := []

namespace FileTree

/-- Whether a directory is at the place. -/
def isFolder (t : FileTree) (p : Path) : Bool := p = [] || t.folders.contains p

/-- The bytes of the file at the place. -/
def file? (t : FileTree) (p : Path) : Option (List UInt8) :=
  if p = nullDevice then some [] else t.files.lookup p

/-- Goes on from a place by some names. Every place that is left on the way is a directory, and
the root is above itself. -/
def walk (t : FileTree) : Path → List Text → Except FileError Path
  | place, [] => .ok place
  | place, name :: names =>
    if !t.isFolder place then
      .error (if (t.file? place).isSome then .notDirectory else .notFound)
    else if name = FileName.here then walk t place names
    else if name = FileName.above then walk t place.dropLast names
    else if FileName.longestPart < FileName.byteCount name then .error .nameTooLong
    else walk t (place ++ [name]) names

/-- The place where a file name starts. -/
def start (t : FileTree) (name : Text) : Path := if FileName.isAbsolute name then [] else t.home

/-- The place of a file name. If the name can only be a directory's and a file is to be made, only
the way to that directory is followed, as no file is made there. -/
def resolve (t : FileTree) (make : Bool) (name : Text) : Except FileError Path :=
  let names := FileName.names name
  if name = [] then .error .notFound
  else if FileName.longest < FileName.byteCount name then .error .nameTooLong
  else if !FileName.wantsFolder name then t.walk (t.start name) names
  else if make then do
    let _ ← t.walk (t.start name) (names.dropLast ++ [FileName.here])
    .error .isDirectory
  else t.walk (t.start name) (names ++ [FileName.here])

/-- The tree with a file at the place, instead of the file there if there is one. -/
def put (t : FileTree) (p : Path) (bytes : List UInt8) : FileTree :=
  if p = nullDevice then t
  else if (t.file? p).isSome then
    { t with files := t.files.map fun (q, old) => if q = p then (q, bytes) else (q, old) }
  else { t with files := t.files ++ [(p, bytes)] }

/-- Opens a file. A file that is not there is made if `make` says so, and one that is there is
emptied if `clear` says so. -/
def openFile (t : FileTree) (make clear : Bool) (name : Text) : Except FileError FileTree := do
  let p ← t.resolve make name
  if t.isFolder p then .error .isDirectory
  else match t.file? p with
    | some _ => .ok (if clear then t.put p [] else t)
    | none => if make then .ok (t.put p []) else .error .notFound

/-- The bytes of a file; none if there is no such file. -/
def bytesOf (t : FileTree) (name : Text) : List UInt8 :=
  match t.resolve false name with
  | .ok p => (t.file? p).getD []
  | .error _ => []

/-- The tree after a change of the bytes of a file. -/
def update (t : FileTree) (name : Text) (change : List UInt8 → List UInt8) : FileTree :=
  match t.resolve false name with
  | .ok p => t.put p (change ((t.file? p).getD []))
  | .error _ => t

end FileTree

/-- A machine as a value. -/
structure Desk where
  tree : FileTree := {}
  input : List UInt8 := []
  output : List UInt8 := []
  diagnostics : List UInt8 := []

namespace Desk

/-- Opens a file of the tree. -/
def openFile (make clear : Bool) (name : Text) : StateM Desk (Except FileError Unit) := do
  let desk ← get
  match desk.tree.openFile make clear name with
  | .ok tree =>
    set { desk with tree }
    return .ok ()
  | .error e => return .error e

/-- The clock of a machine that is a value stands at midnight. -/
instance : Host (StateM Desk) where
  clock := pure "00:00:00"
  standardInput := return (← get).input
  writeOutput bytes := modify fun desk => { desk with output := desk.output ++ bytes }
  writeError bytes := modify fun desk => { desk with diagnostics := desk.diagnostics ++ bytes }
  openToRead := openFile false false
  openToWrite := openFile true true
  openToAppend := openFile true false
  read name := return (← get).tree.bytesOf name
  overwrite name bytes := modify fun desk =>
    { desk with tree := desk.tree.update name fun old => bytes ++ old.drop bytes.length }
  append name bytes := modify fun desk => { desk with tree := desk.tree.update name (· ++ bytes) }

end Desk

end DumpDialect
