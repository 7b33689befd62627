import Mathlib.Data.List.Nodup
import Mathlib.Logic.Function.Basic

/-!
# A hash with known digests

A stand-in for a collision-free hash of bytes: it gives the strings of bytes in a table their true
digests, and every other string a text that is no digest, since it starts with a dash.

Results: `knownHash_injective`.
-/

namespace CortexHarness

/-- The digest in the table, or the bytes themselves after a dash. -/
def knownHash (table : List (List UInt8 × String)) (bytes : List UInt8) : String :=
  match table.find? fun e => e.1 = bytes with
  | some e => e.2
  | none => String.ofList ('-' :: bytes.map fun byte => Char.ofNat byte.toNat)

theorem charOfByte_injective : Function.Injective fun byte : UInt8 => Char.ofNat byte.toNat := by
  intro a b h
  have hval (c : UInt8) : (Char.ofNat c.toNat).toNat = c.toNat := by
    have hvalid : c.toNat.isValidChar := Or.inl (by have := c.toNat_lt; omega)
    rw [Char.ofNat, dif_pos hvalid]
    rfl
  have hnat := congrArg Char.toNat h
  simp only [hval] at hnat
  exact UInt8.toNat_inj.mp hnat

/-- **No two strings of bytes have one digest**, when the digests of the table differ and none of
them starts with a dash. -/
theorem knownHash_injective {table : List (List UInt8 × String)}
    (hdistinct : (table.map Prod.snd).Nodup)
    (hdigests : ∀ e ∈ table, e.2.toList.head? ≠ some '-') :
    Function.Injective (knownHash table) := by
  have hother : ∀ (e : List UInt8 × String) (bytes : List UInt8), e ∈ table →
      e.2 ≠ String.ofList ('-' :: bytes.map fun byte => Char.ofNat byte.toNat) := by
    intro e bytes he heq
    refine hdigests e he ?_
    rw [heq]
    simp
  intro a b h
  unfold knownHash at h
  cases ha : table.find? fun e => e.1 = a with
  | some e =>
    have hmem := List.mem_of_find?_eq_some ha
    have hkey : e.1 = a := by simpa using List.find?_some ha
    cases hb : table.find? fun e => e.1 = b with
    | some e' =>
      have hmem' := List.mem_of_find?_eq_some hb
      have hkey' : e'.1 = b := by simpa using List.find?_some hb
      rw [ha, hb] at h
      rw [← hkey, ← hkey', List.inj_on_of_nodup_map hdistinct hmem hmem' h]
    | none =>
      rw [ha, hb] at h
      exact absurd h (hother e b hmem)
  | none =>
    cases hb : table.find? fun e => e.1 = b with
    | some e' =>
      rw [ha, hb] at h
      exact absurd h.symm (hother e' a (List.mem_of_find?_eq_some hb))
    | none =>
      rw [ha, hb] at h
      have hlist := String.ofList_injective h
      exact List.map_injective_iff.mpr charOfByte_injective (List.cons.inj hlist).2

end CortexHarness
