import CortexHarness.Journal.Models

/-!
# Canonical identities

Model of `identity.py`, of the `BatchSpec` constructor and of `PurePosixPath(...).parts`, which
`enqueue_batch` compares an artifact's path with. The digest is `Python.sha256Hex`; every result of
the development holds for every such function.
-/

namespace CortexHarness.Journal

variable (py : Python)

/-- `run_fingerprint`. -/
def runFingerprint (metadata : RunMetadata) : String := py.sha256Hex metadata.toDict.dumps

/-- `run_id`. -/
def runIdOf (metadata : RunMetadata) : String := "run_" ++ runFingerprint py metadata

/-- `deterministic_job_id`. -/
def deterministicJobId (runFingerprint : String) (phase : OperationPhase) (operationKey : String)
    (sequence : Nat) (payloadSha256 : String) : String :=
  "job_" ++ py.sha256Hex (Json.dumps (.obj [("run_fingerprint", .str runFingerprint),
    ("phase", .str phase.value), ("operation_key", .str operationKey),
    ("sequence", .int sequence), ("payload_sha256", .str payloadSha256)]))

/-- The constructor `BatchSpec(...)`: `__post_init__` sorts the barrier names and raises
`ValueError` on the first check that fails. -/
def BatchSpec.make (phase : OperationPhase) (operationKey : String) (sequence : Nat)
    (artifact : ArtifactRef) (expectedCount : Nat) (requiredBarriers producedBarriers : List String)
    (maxAttempts : Nat) (operation : List (String × Json)) : Except Failure BatchSpec :=
  let required := sortedSet requiredBarriers
  let produced := sortedSet producedBarriers
  if hk : blank operationKey = false then
    if hm : 0 < maxAttempts then
      if hn : ∀ n ∈ required ++ produced, blank n = false then
        if hd : ∀ n ∈ required, n ∉ produced then
          .ok ⟨phase, operationKey, sequence, artifact, expectedCount, required, produced,
            maxAttempts, operation, hk, hm, hn, hd⟩
        else .error (.value ("a batch cannot require and produce the same barrier: " ++
          py.reprContainer (.arr ((required.filter (produced.contains ·)).map .str))))
      else .error (.value "barrier names must not be empty")
    else .error (.value "max_attempts must be positive")
  else .error (.value "operation_key must not be empty")

/-- The texts between the slashes. -/
def splitSlash : List Char → List Char → List String
  | acc, [] => [String.ofList acc.reverse]
  | acc, c :: cs =>
    if c = '/' then String.ofList acc.reverse :: splitSlash [] cs else splitSlash (c :: acc) cs

/-- `PurePosixPath(path).parts`: empty and `.` components vanish, a leading slash is a root part,
and exactly two leading slashes are a root of their own. -/
def posixParts (path : String) : List String :=
  let root := match path.toList with
    | '/' :: '/' :: '/' :: _ => ["/"]
    | '/' :: '/' :: _ => ["//"]
    | '/' :: _ => ["/"]
    | _ => []
  root ++ (splitSlash [] path.toList).filter fun part => part != "" && part != "."

end CortexHarness.Journal
