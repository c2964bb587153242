/-
# ParquetStruct.Store.Basic — the files that a command sees.

A store holds files by their place; what every system has besides is known as far as programs rely
on it.  A directory exists if it is one that is always there, or holds a file somewhere below.  A
path is followed step by step, and every step but the last has to lead to a directory.  Reading and
writing fail as they do for programs; a write either takes place as a whole or changes nothing.
-/
import ParquetStruct.Parquet.File
import ParquetStruct.Store.Path

namespace ParquetStruct

open Parquet (Content)
open Store (SystemError Place Path Step)

/-- The files of a store, by their place. -/
structure Store where
  files : List (Place × Content) := []
  deriving Inhabited

namespace Store

/-! ## What stands at a place -/

/-- What stands at a place of a store. -/
inductive Entry where
  | file (content : Content)
  | directory
  | nothing
  deriving Inhabited

/-- The directories that every system has right below its root. -/
def systemDirectories : List String :=
  ["bin", "boot", "dev", "etc", "home", "lib", "media", "mnt", "opt", "proc", "root", "run", "sbin",
    "srv", "sys", "tmp", "usr", "var"]

/-- The place of the file that every system has, and that is always found empty. -/
def emptyFile : Place := { anchor := .root, names := ["dev", "null"] }

/-- Whether a place is a directory whatever files there are. -/
def isFixedDirectory (p : Place) : Bool :=
  match p.anchor, p.names with
  | _, [] => true
  | .root, [name] => systemDirectories.contains name
  | _, _ => false

/-- What stands at a place. -/
def entry (s : Store) (p : Place) : Entry :=
  match s.files.lookup p with
  | some content => .file content
  | none =>
    if p = emptyFile then .file (.bytes .empty)
    else if isFixedDirectory p || s.files.any fun f => f.1.isWithin p then .directory
    else .nothing

/-- What a name leads to from a directory. -/
def lookUp (s : Store) (dir : Place) (name : String) : Except SystemError Entry :=
  if nameLimit < name.utf8ByteSize then .error .nameTooLong else .ok (s.entry (dir.child name))

/-! ## Following a path -/

/-- Takes a step that has to lead to a directory. -/
def enter (s : Store) (dir : Place) : Step → Except SystemError Place
  | .stay => .ok dir
  | .up => .ok dir.parent
  | .down name => do
    match ← s.lookUp dir name with
    | .directory => return dir.child name
    | .file _ => throw .notADirectory
    | .nothing => throw .notFound

/-- The directory that the last step of a path starts from.  An empty path leads nowhere. -/
def directory (s : Store) (text : String) : Except SystemError Place :=
  if text.isEmpty then .error .notFound
  else if pathLimit ≤ text.utf8ByteSize then .error .nameTooLong
  else
    let path := Path.ofString text
    path.leading.foldlM s.enter path.start

/-! ## Reading and writing -/

/-- The content of the file at a path. -/
def read (s : Store) (text : String) : Except SystemError Content := do
  let path := Path.ofString text
  let dir ← s.directory text
  match path.last with
  | .down name =>
    match ← s.lookUp dir name with
    | .file content => if path.slash then throw .notADirectory else return content
    | .directory => throw .isADirectory
    | .nothing => throw .notFound
  | _ => throw .isADirectory

/-- The store with a file put at a place. -/
def put (s : Store) (p : Place) (content : Content) : Store :=
  ⟨(p, content) :: s.files.filter fun f => f.1 != p⟩

/-- What was put at a place stands there. -/
@[simp] theorem entry_put (s : Store) (p : Place) (content : Content) :
    (s.put p content).entry p = .file content := by
  simp [entry, put]

/-- The store after writing a file.  What is written to the file that is always found empty is
lost. -/
def write (s : Store) (text : String) (content : Content) : Except SystemError Store := do
  let path := Path.ofString text
  let dir ← s.directory text
  match path.last with
  | .down name =>
    -- A name with a slash behind it is refused whatever it leads to.
    if path.slash then throw .isADirectory
    match ← s.lookUp dir name with
    | .directory => throw .isADirectory
    | _ => return if dir.child name = emptyFile then s else s.put (dir.child name) content
  | _ => throw .isADirectory

end Store

end ParquetStruct
