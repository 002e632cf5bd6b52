import Mathlib
import Nightshade.Configd.Effect
import Nightshade.Schema.Curly

/-! The commit archive: each revision is a whole configuration with a sidecar that says who
recorded it, when and why. -/
namespace Nightshade.Configd
open Foundation Schema

/-- Revisions kept before the oldest are pruned. -/
def KEEP : ℕ := 50

inductive ArchiveError where
  | io (message : String)
  | noSuchRevision (revision : ℕ)
  | damaged (revision : ℕ) (reason : String)
  deriving DecidableEq

def ArchiveError.message : ArchiveError → String
  | .io message => message
  | .noSuchRevision revision => "revision " ++ toString revision ++ " is not in the archive"
  | .damaged revision reason => "revision " ++ toString revision ++ " is damaged: " ++ reason

/-- A schema says which of its paths a renderer may write compactly. -/
def tagOracle (schema : Schema) : TagOracle := schema.isTagNode

namespace Archive

/-- The listing of a directory: by revision, newest first; entries of one revision stay as the
directory gave them. -/
def newestFirst (infos : List RevisionInfo) : List RevisionInfo :=
  infos.insertionSort (fun a b => b.revision ≤ a.revision)

/-- Every revision, newest first. -/
def list : Act (Except String (List RevisionInfo)) := do
  match ← Disk.listInfos with
  | .error e => return .error e
  | .ok infos => return .ok (newestFirst infos)

/-- Remove revisions one after another, each with its sidecar. -/
def removeAll : List RevisionInfo → Act (Except String Unit)
  | [] => return .ok ()
  | info::rest => do
    match ← Disk.removeRevision info.stem with
    | .error e => return .error e
    | .ok () =>
      match ← Disk.removeInfo info.stem with
      | .error e => return .error e
      | .ok () => removeAll rest

/-- Remove everything older than the newest `KEEP` revisions. -/
def prune : Act (Except String Unit) := do
  match ← list with
  | .error e => return .error e
  | .ok revisions => removeAll (revisions.drop KEEP)

/-- Record a revision, then prune the oldest. -/
def write (schema : Schema) (info : RevisionInfo) (config : ConfigTree) :
    Act (Except String Unit) := do
  match ← Disk.createArchive with
  | .error e => return .error e
  | .ok () =>
    match ← Disk.writeRevision info.stem (render config (tagOracle schema)) with
    | .error e => return .error e
    | .ok () =>
      match ← Disk.writeInfo info with
      | .error e => return .error e
      | .ok () => prune

/-- The configuration a revision holds. -/
def read (revision : ℕ) : Act (Except ArchiveError ConfigTree) := do
  match ← list with
  | .error e => return .error (.io e)
  | .ok revisions =>
    match revisions.find? (fun info => info.revision = revision) with
    | none => return .error (.noSuchRevision revision)
    | some info =>
      match ← Disk.readRevision info.stem with
      | .error e => return .error (.io e)
      | .ok text =>
        match parse text with
        | .error e => return .error (.damaged revision e.message)
        | .ok config => return .ok config

end Archive
end Nightshade.Configd
