import CortexHarness.Journal.Store

/-!
# The artifact store as the journal reads it

Model of `ArtifactStore.path_for`, `verify` and `read_jsonl` (`artifacts.py:353-398`). A file is
known by what reading it yields: its length, its SHA-256 and, when every line parses, its rows.
-/

namespace CortexHarness.Journal

open Table

/-- What reading one file of the artifact directory yields; `rows` is `none` when a line is not
JSON. `relativePath` is the resolved path below the root. -/
structure StoredFile where
  relativePath : List String
  byteCount : Nat
  sha256 : String
  rows : Option (List Json)
  deriving Repr

/-- The files under the artifact root. -/
abbrev Files := List StoredFile

/-- `verify`; the message of a missing file ends in the operating system's own text, left out. -/
def verifyArtifact (files : Files) (ref : ArtifactRef) : Except Failure StoredFile :=
  match lookup StoredFile.relativePath (posixParts ref.relativePath) files with
  | none => .error (.journal .invalidContract "cannot read journal artifact" [])
  | some file =>
    if file.byteCount ≠ ref.byteCount ∨ file.sha256 ≠ ref.sha256 then
      .error (.journal .artifactHashMismatch
        "journal artifact does not match its immutable reference"
        [("sha256", .str ref.sha256), ("path", .str ref.relativePath)])
    else .ok file

/-- `read_jsonl`. -/
def readJsonl (files : Files) (ref : ArtifactRef) : Except Failure (List Json) :=
  match verifyArtifact files ref with
  | .error e => .error e
  | .ok file =>
    match file.rows with
    | none =>
      .error (.journal .artifactHashMismatch "journal artifact is not valid canonical JSONL" [])
    | some rows =>
      if rows.length ≠ ref.rowCount then
        .error (.journal .artifactHashMismatch
          "journal artifact row count does not match its reference" [])
      else .ok rows

end CortexHarness.Journal
