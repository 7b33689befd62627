import Mathlib.Data.String.Basic
import CortexHarness.Library.KnownHash
import CortexHarness.Library.Separator
import CortexHarness.Proc.Alignment

/-!
# The identity of a semantic observation

Model of `_digest`, `SemanticCacheIdentity` and `build_cache_identity`
(`cplus/semantic_context.py:70-75, 449-507`). The fingerprint hashes a flat list of parts, each ended
by a zero byte, with the dependency fingerprints in the middle of it.

Model notes: `sha256(...).hexdigest()` is a parameter of the functions. Of a registered context only
what `build_cache_identity` reads is kept.

Results:
* `parts_inj`: the parts tell the identity, since only the number of dependencies varies;
* `stream_inj`: the hashed bytes tell the parts, when no part has a NUL;
* **`fingerprint_identifies`**: equal fingerprints are of equal identities, and the order of the
  dependency fingerprints does not matter.
-/

namespace CortexHarness.Cplus

open Proc (encode decodeUtf8_encode)

inductive CoverageState where
  | faithful
  | synthetic
  | inherited
  deriving DecidableEq

/-- `coverage.value` -/
def CoverageState.value : CoverageState → String
  | .faithful => "faithful"
  | .synthetic => "synthetic"
  | .inherited => "inherited"

structure RegisteredContext where
  relPath : String
  configFingerprint : String
  workingDirRel : String
  targetIdentity : String
  sysrootIdentity : String
  resourceDirIdentity : String
  toolchainVersion : String
  coverage : CoverageState
  sourceFingerprint : String

structure SemanticCacheIdentity where
  sourceRelPath : String
  sourceFingerprint : String
  dependencyFingerprints : List String
  configFingerprint : String
  coverage : CoverageState
  procSourceMapVersion : String
  workingDirRel : String
  targetIdentity : String
  sysrootIdentity : String
  resourceDirIdentity : String
  toolchainVersion : String
  deriving DecidableEq

/-- `SEMANTIC_CACHE_VERSION`, `SEMANTIC_POLICY_VERSION`, `SEMANTIC_WORKER_PROTOCOL_VERSION`,
`SEMANTIC_REQUEST_SCHEMA`, `SEMANTIC_BACKEND_ID`, `PINNED_LIBCLANG_VERSION` -/
def versions : List String := ["1", "1", "2", "call_evidence", "cindex-libclang", "18.1.1"]

/-- The fields before the dependency fingerprints. -/
def SemanticCacheIdentity.before (identity : SemanticCacheIdentity) : List String :=
  [identity.sourceRelPath, identity.sourceFingerprint]

/-- The fields after them, but for the configuration and the coverage. -/
def SemanticCacheIdentity.after (identity : SemanticCacheIdentity) : List String :=
  [identity.procSourceMapVersion, identity.workingDirRel, identity.targetIdentity,
    identity.sysrootIdentity, identity.resourceDirIdentity, identity.toolchainVersion]

/-- What `fingerprint` hashes. -/
def SemanticCacheIdentity.parts (identity : SemanticCacheIdentity) : List String :=
  versions ++ identity.before ++ identity.dependencyFingerprints ++
    identity.configFingerprint :: identity.coverage.value :: identity.after

/-- No string of the identity has a NUL. -/
def SemanticCacheIdentity.NulFree (identity : SemanticCacheIdentity) : Prop :=
  ∀ text ∈ identity.before ++ identity.dependencyFingerprints ++ identity.configFingerprint ::
    identity.after, '\x00' ∉ text.toList

section Digest

variable (sha256 : List UInt8 → String)

/-- The bytes that `_digest` feeds to the hash. -/
def stream (parts : List String) : List UInt8 := parts.flatMap fun part => encode part.toList ++ [0]

/-- `_digest` -/
def digest (parts : List String) : String := sha256 (stream parts)

def SemanticCacheIdentity.fingerprint (identity : SemanticCacheIdentity) : String :=
  digest sha256 identity.parts

end Digest

/-- `build_cache_identity` -/
def buildCacheIdentity (context : RegisteredContext) (dependencyFingerprints : List String)
    (procSourceMapVersion : String) : SemanticCacheIdentity where
  sourceRelPath := context.relPath
  sourceFingerprint := context.sourceFingerprint
  dependencyFingerprints := dependencyFingerprints.insertionSort (· ≤ ·)
  configFingerprint := context.configFingerprint
  coverage := context.coverage
  procSourceMapVersion
  workingDirRel := context.workingDirRel
  targetIdentity := context.targetIdentity
  sysrootIdentity := context.sysrootIdentity
  resourceDirIdentity := context.resourceDirIdentity
  toolchainVersion := context.toolchainVersion

/-! ## From the hash to the identity -/

theorem encode_inj {s t : List Char} (h : encode s = encode t) : s = t := by
  have hdecode := congrArg Proc.decodeUtf8 h
  rw [decodeUtf8_encode, decodeUtf8_encode] at hdecode
  exact Option.some.inj hdecode

theorem stream_eq (parts : List String) :
    stream parts = encode ((parts.map String.toList).flatMap (· ++ ['\x00'])) := by
  induction parts with
  | nil => rfl
  | cons part parts ih =>
    have hnul : encode ['\x00'] = [0] := by decide
    simp only [stream, encode, List.map_cons, List.flatMap_cons, List.flatMap_append] at ih hnul ⊢
    rw [ih, hnul]

/-- **The hashed bytes tell the parts.** -/
theorem stream_inj {ps qs : List String} (hps : ∀ p ∈ ps, '\x00' ∉ p.toList)
    (hqs : ∀ q ∈ qs, '\x00' ∉ q.toList) (h : stream ps = stream qs) : ps = qs := by
  rw [stream_eq, stream_eq] at h
  have hlists := Separator.terminated_inj (List.forall_mem_map.mpr hps)
    (List.forall_mem_map.mpr hqs) (encode_inj h)
  exact List.map_injective_iff.mpr (fun _ _ he => String.toList_inj.mp he) hlists

theorem CoverageState.value_inj {c d : CoverageState} (h : c.value = d.value) : c = d := by
  cases c <;> cases d <;> first | rfl | exact absurd h (by decide)

/-- **The parts tell the identity**: what follows the dependencies has a fixed length. -/
theorem parts_inj {a b : SemanticCacheIdentity} (h : a.parts = b.parts) : a = b := by
  unfold SemanticCacheIdentity.parts at h
  obtain ⟨hfront, hback⟩ := List.append_inj' h rfl
  rw [List.append_assoc, List.append_assoc] at hfront
  obtain ⟨hbefore, hdeps⟩ := List.append_inj (List.append_cancel_left hfront) rfl
  obtain ⟨pathA, sourceA, depsA, configA, coverageA, mapA, dirA, targetA, rootA, resourceA,
    toolsA⟩ := a
  obtain ⟨pathB, sourceB, depsB, configB, coverageB, mapB, dirB, targetB, rootB, resourceB,
    toolsB⟩ := b
  simp only [SemanticCacheIdentity.before, SemanticCacheIdentity.after, List.cons.injEq, and_true]
    at hbefore hdeps hback
  obtain ⟨hpath, hsource⟩ := hbefore
  obtain ⟨hconfig, hcoverage, hmap, hdir, htarget, hroot, hresource, htools⟩ := hback
  have hcoverage := CoverageState.value_inj hcoverage
  subst hpath hsource hdeps hconfig hcoverage hmap hdir htarget hroot hresource htools
  rfl

theorem SemanticCacheIdentity.NulFree.parts {a : SemanticCacheIdentity} (h : a.NulFree) :
    ∀ part ∈ a.parts, '\x00' ∉ part.toList := by
  have hversions : ∀ part ∈ versions, '\x00' ∉ part.toList := by decide
  have hvalue : '\x00' ∉ a.coverage.value.toList := by cases a.coverage <;> decide
  intro part hpart
  unfold SemanticCacheIdentity.parts at hpart
  unfold NulFree at h
  simp only [List.mem_append, List.mem_cons] at hpart h
  rcases hpart with ((hpart | hpart) | hpart) | hpart | rfl | hpart
  · exact hversions part hpart
  · exact h part (.inl (.inl hpart))
  · exact h part (.inl (.inr hpart))
  · exact h part (.inr (.inl hpart))
  · exact hvalue
  · exact h part (.inr (.inr hpart))

theorem insertionSort_perm {deps deps' : List String} (h : deps'.Perm deps) :
    deps'.insertionSort (· ≤ ·) = deps.insertionSort (· ≤ ·) := by
  refine List.Perm.eq_of_sortedLE List.sortedLE_insertionSort List.sortedLE_insertionSort ?_
  exact (List.perm_insertionSort _ _).trans (h.trans (List.perm_insertionSort _ _).symm)

/-- **A fingerprint tells the identity**, and the identity that is built does not depend on the order
of the dependency fingerprints. -/
theorem fingerprint_identifies {sha256 : List UInt8 → String} (hsha : Function.Injective sha256) :
    (∀ a b : SemanticCacheIdentity, a.NulFree → b.NulFree →
        a.fingerprint sha256 = b.fingerprint sha256 → a = b) ∧
      ∀ (context : RegisteredContext) (deps deps' : List String) (procSourceMapVersion : String),
        deps'.Perm deps → buildCacheIdentity context deps' procSourceMapVersion =
          buildCacheIdentity context deps procSourceMapVersion := by
  refine ⟨?_, ?_⟩
  · intro a b ha hb h
    exact parts_inj (stream_inj ha.parts hb.parts (hsha h))
  · intro context deps deps' procSourceMapVersion h
    unfold buildCacheIdentity
    rw [insertionSort_perm h]

/-- The identity of a file with these dependencies, the optional fields empty. -/
def sampleIdentity (deps : List String) : SemanticCacheIdentity where
  sourceRelPath := "main.c"
  sourceFingerprint := "5e1f"
  dependencyFingerprints := deps
  configFingerprint := "c0de"
  coverage := .faithful
  procSourceMapVersion := ""
  workingDirRel := ""
  targetIdentity := ""
  sysrootIdentity := ""
  resourceDirIdentity := ""
  toolchainVersion := ""

/-- The digests of two identities that differ in an empty dependency. -/
def sampleTable : List (List UInt8 × String) := [
  (stream (sampleIdentity ["d1"]).parts,
    "1d273e9ec7d30259038c6d2eddb1de37d6bb627e6aecd09deb3b09e0053f1d7e"),
  (stream (sampleIdentity ["d1", ""]).parts,
    "859ea67f84809627845a44cd48755c4fa322bec540c5aba895bb42f518d69d4f")]

/-- An empty dependency does not hide among the empty fields. -/
theorem fingerprint_identifies_sample :
    (sampleIdentity ["d1"]).fingerprint (knownHash sampleTable) ≠
      (sampleIdentity ["d1", ""]).fingerprint (knownHash sampleTable) := by
  have hhash : Function.Injective (knownHash sampleTable) :=
    knownHash_injective (by decide) (by decide)
  intro h
  have hnul : (sampleIdentity ["d1"]).NulFree := by
    unfold SemanticCacheIdentity.NulFree
    decide
  have hnul' : (sampleIdentity ["d1", ""]).NulFree := by
    unfold SemanticCacheIdentity.NulFree
    decide
  have hsame := (fingerprint_identifies hhash).1 _ _ hnul hnul' h
  exact absurd hsame (by decide)

end CortexHarness.Cplus
