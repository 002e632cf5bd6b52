import Mathlib
import Nightshade.Schema.Path
import Nightshade.Render.Artifacts

/-! Two hosts make a directory hold some files: the real one, through temporary files, and the one that tests
are run against. Where they come to the same. -/
namespace Nightshade.Render
open Foundation Schema

/-- The regular files of a machine, each at its path. A name is one segment of a path. -/
abbrev FileSystem := SortedMap Path String

namespace FileSystem

/-- The name without its extension. A dot in front does not begin one. -/
def fileStem (name : List Char) : List Char :=
  let before := (name.reverse.dropWhile (· ≠ '.')).tail.reverse
  if before = [] then name else before

/-- The name with another extension. -/
def withExtension (extension name : String) : String := String.ofList (fileStem name.toList) ++ "." ++ extension

/-- Whether a name carries the marker. -/
def carries (marker name : String) : Bool := decide (marker.toList <:+: name.toList)

/-- Move a file over whatever is at its new path. -/
def rename (before after : Path) (fs : FileSystem) : FileSystem :=
  match fs.get? before with
  | some contents => (fs.erase before).insert after contents
  | none => fs

def removeAll (paths : List Path) (fs : FileSystem) : FileSystem := paths.foldl (fun fs path => fs.erase path) fs

/-- A file of a directory that carries the marker, and that is not wanted. -/
def isStale (dir : Path) (marker : String) (files : SortedMap String String) (path : Path) : Bool :=
  path.dropLast = dir && path.getLast?.any (fun name => carries marker name && (files.get? name).isNone)

end FileSystem

open FileSystem

namespace RealHost

/-- The file beside a file that it is written to first. -/
def temporary (name : String) : String := withExtension "ns-new" name

/-- Write through a temporary file and a rename. -/
def writeAtomically (dir : Path) (file : String × String) (fs : FileSystem) : FileSystem :=
  rename (dir ++ [temporary file.1]) (dir ++ [file.1]) (fs.insert (dir ++ [temporary file.1]) file.2)

/-- Write what is wanted, and then remove what is not. -/
def sync (dir : Path) (marker : String) (files : SortedMap String String) (fs : FileSystem) : FileSystem :=
  let fs := files.entries.foldl (fun fs file => writeAtomically dir file fs) fs
  removeAll (fs.keys.filter (isStale dir marker files)) fs

end RealHost

namespace MockHost

/-- Remove what is not wanted, and then write what is. -/
def sync (dir : Path) (marker : String) (files : SortedMap String String) (fs : FileSystem) : FileSystem :=
  (removeAll (fs.keys.filter (isStale dir marker files)) fs).insertAll
    (files.entries.map (fun file => (dir ++ [file.1],file.2)))

end MockHost

/-! ### What the two leave -/

namespace FileSystem

variable {dir path : Path} {marker : String} {files : SortedMap String String} {fs : FileSystem}

end FileSystem

variable {dir path : Path} {marker name : String} {files : SortedMap String String} {fs : FileSystem}

section Written
variable {es : List (String × String)}

/-- The files of a directory, after the given ones were written. -/
def written (dir : Path) (es : List (String × String)) (fs : FileSystem) : FileSystem :=
  es.foldl (fun fs file => RealHost.writeAtomically dir file fs) fs

variable (hsorted : KeySorted es)
include hsorted

end Written

/-! ### Where they agree -/

/-- The hosts agree on what a directory holds in the end, and neither does what it should not. -/
structure Agree (dir : Path) (marker : String) (files : SortedMap String String) (fs : FileSystem) : Prop where
  same : RealHost.sync dir marker files fs = MockHost.sync dir marker files fs
  /-- A file that is neither wanted nor marked is as it was. -/
  untouched : ∀ path, (∀ name, path = dir ++ [name] → files.get? name = none ∧ carries marker name = false) →
    (RealHost.sync dir marker files fs).get? path = fs.get? path
  /-- There is nothing new but what is wanted. -/
  nothingLeft : ∀ path, (∀ name, path = dir ++ [name] → files.get? name = none) → fs.get? path = none →
    (RealHost.sync dir marker files fs).get? path = none
  again : RealHost.sync dir marker files (RealHost.sync dir marker files fs) = RealHost.sync dir marker files fs ∧
    MockHost.sync dir marker files (MockHost.sync dir marker files fs) = MockHost.sync dir marker files fs

end Nightshade.Render
