import ManagedCode.Text.Scan

namespace ManagedCode.CommandLine

/-! Files by their paths. -/

open Text

/-- The names on the way to a file or a folder. -/
abbrev Path := List String

/-- What an input leads to. The files of a folder carry their paths from there. -/
inductive Located where
  | file (bytes : ByteArray)
  | folder (files : List (Path × ByteArray))
  | missing

/-- Files, and the folders that are there without any. -/
structure Disk where
  files : List (Path × ByteArray)
  folders : List Path

namespace Disk

def empty : Disk := ⟨[], []⟩

/-- A file takes the place of the one before it. -/
def write (d : Disk) (path : Path) (bytes : ByteArray) : Disk :=
  { d with files := (path, bytes) :: d.files.filter (·.1 ≠ path) }

def addFolder (d : Disk) (path : Path) : Disk :=
  { d with folders := path :: d.folders }

/-- The files below a path. -/
def below (d : Disk) (path : Path) : List (Path × ByteArray) :=
  d.files.filterMap fun (file, bytes) =>
    if path.isPrefixOf file && path.length < file.length then some (file.drop path.length, bytes)
    else none

def isFolder (d : Disk) (path : Path) : Bool :=
  path.isEmpty || !(d.below path).isEmpty || d.folders.any path.isPrefixOf

/-- Where the names of a path lead from a place. Only a folder can be passed. -/
def follow? (d : Disk) (place : Path) : List String → Option Path
  | [] => some place
  | name :: rest =>
    if d.isFolder place then
      match name with
      | "" | "." => follow? d place rest
      | ".." => if place.isEmpty then none else follow? d place.dropLast rest
      | name => follow? d (place ++ [name]) rest
    else none

def get (d : Disk) (place : Path) : Located :=
  match d.files.lookup place with
  | some bytes => .file bytes
  | none => if d.isFolder place then .folder (d.below place) else .missing

/-- A path from the root leads out of the disk. -/
def find (d : Disk) (path : String) : Located :=
  match (split '/' path.toList).map String.ofList with
  | "" :: _ => .missing
  | names => ((d.follow? [] names).map d.get).getD .missing

end Disk

end ManagedCode.CommandLine
