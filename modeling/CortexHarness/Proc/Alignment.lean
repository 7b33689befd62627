import CortexHarness.Proc.Masking
import Mathlib.Algebra.GroupWithZero.Nat

/-!
# Byte alignment of the masked source

The masked bytes of a source are aligned with its bytes when both have the same length, newlines at
the same offsets and the same bytes outside the regions; every offset then denotes the same line and
column in both. The mask has one character for each character of a block, so this takes blocks in
ASCII.

Results:
* `lexemes_text`: the lexemes are the source, cut into pieces;
* `block_newlines`: the mask of an ASCII block has its length and its newlines in bytes;
* `output_outside`: what is outside the regions is copied;
* `proc_alignment_iff`: when the masked bytes are aligned.
-/

namespace CortexHarness.Proc

/-! ## The lexemes of a source -/

theorem comment_pos (marker : List Char) (c : Char) (source : List Char) :
    0 < comment marker (c :: source) := by
  unfold comment
  split
  · omega
  · exact Nat.succ_pos _

theorem rawString_pos {source : List Char} {n : Nat} (h : rawString source = some n) : 0 < n := by
  unfold rawString at h
  split at h
  · obtain ⟨paren, -, rfl⟩ := Option.map_eq_some_iff.mp h
    simp only
    split
    · omega
    · exact Nat.succ_pos _
  · cases h

theorem lexemeAt_text (cd : Codecs) (before : Option Char) (c : Char) (source : List Char) :
    ∃ n, 0 < n ∧ (lexemeAt cd before (c :: source)).text = (c :: source).take n := by
  unfold lexemeAt
  split
  · exact ⟨_, comment_pos _ c source, rfl⟩
  split
  · exact ⟨_, comment_pos _ c source, rfl⟩
  split
  · exact ⟨_, Nat.succ_pos _, rfl⟩
  split
  · exact ⟨_, Nat.succ_pos _, rfl⟩
  split
  · next length hraw => exact ⟨length, rawString_pos hraw, rfl⟩
  · split
    · exact ⟨1, Nat.one_pos, rfl⟩
    · split
      · exact ⟨_, Nat.succ_pos _, rfl⟩
      · exact ⟨(c :: source).length, Nat.succ_pos _, List.take_length.symm⟩

/-- **The lexemes are the source**, from where the last one ends. -/
theorem lexemes_text (cd : Codecs) (before : Option Char) (skip : Nat) (source : List Char) :
    (lexemes cd before skip source).flatMap Lexeme.text = source.drop skip := by
  induction source generalizing before skip with
  | nil => simp [lexemes]
  | cons c source ih =>
    unfold lexemes
    cases skip with
    | succ skip =>
      rw [if_pos (Nat.succ_pos skip), ih]
      rfl
    | zero =>
      obtain ⟨n, hpos, htext⟩ := lexemeAt_text cd before c source
      rw [if_neg (Nat.lt_irrefl 0)]
      simp only [List.flatMap_cons]
      rw [ih, htext]
      obtain ⟨m, rfl⟩ := Nat.exists_eq_succ_of_ne_zero (Nat.ne_of_gt hpos)
      rw [List.take_succ_cons, List.length_cons, List.length_take, Nat.add_sub_cancel,
        List.drop_zero, List.cons_append]
      refine congrArg (c :: ·) ?_
      by_cases hle : m ≤ source.length
      · rw [Nat.min_eq_left hle, List.take_append_drop]
      · rw [Nat.min_eq_right (by omega), List.take_of_length_le (by omega), List.drop_length,
          List.append_nil]

/-! ## Bytes -/

/-- The byte is a newline. -/
def isNewline (b : UInt8) : Bool := b == 10

/-- The character has one byte. -/
def Ascii (c : Char) : Prop := c.toNat < 128

theorem encode_append (a b : List Char) : encode (a ++ b) = encode a ++ encode b :=
  List.flatMap_append

theorem length_encode (text : List Char) : (encode text).length = (text.map Char.utf8Size).sum := by
  unfold encode
  rw [List.length_flatMap]
  simp

theorem ascii_iff {c : Char} : Ascii c ↔ c.utf8Size = 1 := by
  rw [Char.utf8Size_eq_one_iff, UInt32.le_iff_toNat_le]
  unfold Ascii
  show c.val.toNat < 128 ↔ c.val.toNat ≤ 127
  omega

theorem encodeChar_ascii {c : Char} (h : Ascii c) :
    String.utf8EncodeChar c = [UInt8.ofNat c.toNat] := by
  unfold String.utf8EncodeChar
  exact if_pos (Nat.le_of_lt_succ h)

/-- The mask of a character. -/
def maskChar (c : Char) : Char := if c = '\n' then '\n' else ' '

theorem maskChar_ascii (c : Char) : Ascii (maskChar c) := by
  unfold maskChar Ascii
  split
  · decide
  · decide

theorem maskChar_newline {c : Char} (h : Ascii c) :
    (String.utf8EncodeChar (maskChar c)).map isNewline =
      (String.utf8EncodeChar c).map isNewline := by
  unfold maskChar
  by_cases hc : c = '\n'
  · rw [if_pos hc, hc]
  · rw [if_neg hc, encodeChar_ascii h]
    have hne : (UInt8.ofNat c.toNat == 10) = false := by
      rw [beq_eq_false_iff_ne]
      intro he
      have hn : c.toNat % 2 ^ 8 = 10 := by
        rw [← UInt8.toNat_ofNat', he]
        rfl
      unfold Ascii at h
      have hnl : c.val.toNat = '\n'.val.toNat := by
        show c.toNat = 10
        omega
      exact hc (Char.ext (UInt32.toNat_inj.mp hnl))
    show [isNewline 32] = [isNewline (UInt8.ofNat c.toNat)]
    unfold isNewline
    rw [hne]
    rfl

theorem maskText_eq (text : List Char) : maskText text = text.map maskChar := rfl

/-- The mask of a block has as many bytes as the block has characters. -/
theorem length_mask (text : List Char) : (encode (maskText text)).length = text.length := by
  rw [length_encode, maskText_eq, List.map_map]
  have hone : ∀ c ∈ text, (Char.utf8Size ∘ maskChar) c = 1 := fun c _ =>
    ascii_iff.mp (maskChar_ascii c)
  rw [List.map_congr_left hone]
  simp

theorem length_block {text : List Char} :
    text.length ≤ (encode text).length ∧
      ((encode text).length = text.length ↔ ∀ c ∈ text, Ascii c) := by
  rw [length_encode]
  induction text with
  | nil => simp
  | cons c text ih =>
    obtain ⟨hle, hiff⟩ := ih
    have hpos := c.utf8Size_pos
    rw [List.map_cons, List.sum_cons, List.length_cons]
    refine ⟨by omega, ?_⟩
    rw [List.forall_mem_cons, ← hiff, ascii_iff]
    omega

/-- The mask of an ASCII block has the newlines of the block, byte by byte. -/
theorem block_newlines {text : List Char} (h : ∀ c ∈ text, Ascii c) :
    (encode (maskText text)).map isNewline = (encode text).map isNewline := by
  induction text with
  | nil => rfl
  | cons c text ih =>
    have hrest := ih fun x hx => h x (List.mem_cons_of_mem _ hx)
    unfold encode at hrest ⊢
    rw [maskText_eq] at hrest ⊢
    rw [List.map_cons, List.flatMap_cons, List.flatMap_cons, List.map_append, List.map_append,
      hrest, maskChar_newline (h c List.mem_cons_self)]

/-! ## The output of the lexemes -/

/-- The texts of the blocks. -/
def blocks (ls : List Lexeme) : List (List Char) :=
  ls.filterMap fun
    | .verbatim _ => none
    | .block text _ => some text

theorem output_newlines {ls : List Lexeme} (h : ∀ text ∈ blocks ls, ∀ c ∈ text, Ascii c) :
    (encode (ls.flatMap Lexeme.output)).map isNewline =
      (encode (ls.flatMap Lexeme.text)).map isNewline := by
  induction ls with
  | nil => rfl
  | cons l ls ih =>
    rw [List.flatMap_cons, List.flatMap_cons, encode_append, encode_append, List.map_append,
      List.map_append]
    cases l with
    | verbatim text =>
      rw [ih h]
      rfl
    | block text terminated =>
      have hblocks : blocks (.block text terminated :: ls) = text :: blocks ls := rfl
      rw [hblocks] at h
      rw [ih fun t ht => h t (List.mem_cons_of_mem _ ht)]
      refine congrArg (· ++ _) (block_newlines (h text List.mem_cons_self))

theorem length_output (ls : List Lexeme) :
    (encode (ls.flatMap Lexeme.output)).length ≤ (encode (ls.flatMap Lexeme.text)).length ∧
      ((encode (ls.flatMap Lexeme.output)).length = (encode (ls.flatMap Lexeme.text)).length →
        ∀ text ∈ blocks ls, ∀ c ∈ text, Ascii c) := by
  induction ls with
  | nil => exact ⟨Nat.le_refl _, fun _ _ h => by cases h⟩
  | cons l ls ih =>
    obtain ⟨hle, hascii⟩ := ih
    rw [List.flatMap_cons, List.flatMap_cons, encode_append, encode_append, List.length_append,
      List.length_append]
    cases l with
    | verbatim text =>
      have hsame : (encode (Lexeme.verbatim text).output).length =
          (encode (Lexeme.verbatim text).text).length := rfl
      exact ⟨by omega, fun he => hascii (by omega)⟩
    | block text terminated =>
      have hmask : (encode (Lexeme.block text terminated).output).length = text.length :=
        length_mask text
      obtain ⟨hblock, hiff⟩ := (length_block : text.length ≤ _ ∧ _)
      have htext : (Lexeme.block text terminated).text = text := rfl
      rw [htext, hmask]
      refine ⟨by omega, fun he t ht => ?_⟩
      have hblocks : blocks (.block text terminated :: ls) = text :: blocks ls := rfl
      rw [hblocks] at ht
      rcases List.mem_cons.mp ht with rfl | ht
      · exact hiff.mp (by omega)
      · exact hascii (by omega) t ht

/-- Outside the regions the output is the source, byte by byte. -/
theorem output_outside {ls : List Lexeme} (h : ∀ text ∈ blocks ls, ∀ c ∈ text, Ascii c)
    (before : List Char) (i : Nat)
    (hout : ∀ r ∈ regionsAfter before ls,
      ¬ (r.startByte ≤ (encode before).length + i ∧ (encode before).length + i < r.endByte)) :
    (encode (ls.flatMap Lexeme.output))[i]? = (encode (ls.flatMap Lexeme.text))[i]? := by
  induction ls generalizing before i with
  | nil => rfl
  | cons l ls ih =>
    rw [List.flatMap_cons, List.flatMap_cons, encode_append, encode_append]
    have hshift : ∀ (text : List Char) (j : Nat),
        (encode (before ++ text)).length + j =
          (encode before).length + ((encode text).length + j) := by
      intro text j
      rw [encode_append, List.length_append]
      omega
    cases l with
    | verbatim text =>
      show (encode text ++ _)[i]? = (encode text ++ _)[i]?
      by_cases hi : i < (encode text).length
      · rw [List.getElem?_append_left hi, List.getElem?_append_left hi]
      · obtain ⟨j, rfl⟩ := Nat.exists_eq_add_of_le (Nat.le_of_not_lt hi)
        rw [List.getElem?_append_right (by omega), List.getElem?_append_right (by omega),
          Nat.add_sub_cancel_left]
        refine ih h (before ++ text) j fun r hr => ?_
        rw [hshift]
        exact hout r hr
    | block text terminated =>
      have hblocks : blocks (.block text terminated :: ls) = text :: blocks ls := rfl
      rw [hblocks] at h
      have hlen : (encode (maskText text)).length = (encode text).length := by
        rw [length_mask, length_block.2.mpr (h text List.mem_cons_self)]
      show (encode (maskText text) ++ _)[i]? = (encode text ++ _)[i]?
      by_cases hi : i < (encode text).length
      · refine absurd ?_ (hout _ List.mem_cons_self)
        refine ⟨Nat.le_add_right _ _, ?_⟩
        show (encode before).length + i < (encode (before ++ text)).length
        rw [encode_append, List.length_append]
        omega
      · obtain ⟨j, rfl⟩ := Nat.exists_eq_add_of_le (Nat.le_of_not_lt hi)
        rw [List.getElem?_append_right (by omega), List.getElem?_append_right (by omega), hlen,
          Nat.add_sub_cancel_left]
        refine ih (fun t ht => h t (List.mem_cons_of_mem _ ht)) (before ++ text) j fun r hr => ?_
        rw [hshift]
        exact hout r (List.mem_cons_of_mem _ hr)

/-! ## Alignment -/

/-- Line and column of a byte offset: the newlines before it, and the bytes since the last one. -/
def position (bytes : List UInt8) (i : Nat) : Nat × Nat :=
  let before := (bytes.map isNewline).take i
  (before.count true, (before.reverse.takeWhile fun b => !b).length)

/-- The masked bytes are aligned with the source bytes. -/
structure Aligned (p : PreparedProcSource) : Prop where
  length : p.maskedBytes.length = p.sourceBytes.length
  newlines : ∀ i : Nat, p.maskedBytes[i]? = some 10 ↔ p.sourceBytes[i]? = some 10
  outside : ∀ i : Nat, (∀ r ∈ p.regions, ¬ (r.startByte ≤ i ∧ i < r.endByte)) →
    p.maskedBytes[i]? = p.sourceBytes[i]?
  positions : ∀ i : Nat, position p.maskedBytes i = position p.sourceBytes i

/-- The `EXEC SQL` blocks of a source, as the scanner cuts it. -/
def sqlBlocks (cd : Codecs) (raw : List UInt8) : List (List Char) :=
  blocks (lexemes cd none 0 (decodeSource cd raw).1)

theorem newlines_of_map {bytes bytes' : List UInt8}
    (h : bytes.map isNewline = bytes'.map isNewline) (i : Nat) :
    bytes[i]? = some 10 ↔ bytes'[i]? = some 10 := by
  have hnl : ∀ l : List UInt8, l[i]? = some 10 ↔ (l.map isNewline)[i]? = some true := by
    intro l
    rw [List.getElem?_map]
    cases l[i]? with
    | none => simp
    | some b => simp [isNewline]
  rw [hnl, hnl, h]

/-- **Byte alignment of the masked source** holds exactly when its `EXEC SQL` blocks are ASCII. -/
theorem proc_alignment_iff (cd : Codecs) (raw : List UInt8) :
    Aligned (prepareProcBytes cd raw) ↔ ∀ text ∈ sqlBlocks cd raw, ∀ c ∈ text, Ascii c := by
  have htext := lexemes_text cd none 0 (decodeSource cd raw).1
  rw [List.drop_zero] at htext
  have hsource : (prepareProcBytes cd raw).sourceBytes =
      encode ((lexemes cd none 0 (decodeSource cd raw).1).flatMap Lexeme.text) := by
    rw [htext]
    rfl
  have hmasked : (prepareProcBytes cd raw).maskedBytes =
      encode ((lexemes cd none 0 (decodeSource cd raw).1).flatMap Lexeme.output) := rfl
  have hregions : (prepareProcBytes cd raw).regions =
      regionsAfter [] (lexemes cd none 0 (decodeSource cd raw).1) := rfl
  constructor
  · intro h
    have hlen := h.length
    rw [hsource, hmasked] at hlen
    exact (length_output _).2 hlen
  · intro h
    have hmap := output_newlines h
    constructor
    · rw [hsource, hmasked]
      simpa using congrArg List.length hmap
    · rw [hsource, hmasked]
      exact newlines_of_map hmap
    · intro i hout
      rw [hregions] at hout
      rw [hsource, hmasked]
      refine output_outside h [] i fun r hr => ?_
      have hzero : (encode []).length + i = i := Nat.zero_add i
      rw [hzero]
      exact hout r hr
    · intro i
      unfold position
      rw [hsource, hmasked, hmap]

theorem decodeUtf8_encode (text : List Char) : decodeUtf8 (encode text) = some text := by
  have h : (encode text).toByteArray.utf8Decode? = some text.toArray := List.utf8Decode?_utf8Encode
  unfold decodeUtf8
  rw [h]
  rfl

/-- The word characters of ASCII, and no other codec. -/
def asciiCodecs : Codecs :=
  { cp932 := fun _ => none
    replace := fun _ => []
    word := fun c => c.isAlphanum || c = '_' }

/-- A block with a character of two bytes. -/
def sampleSource : List Char := "EXEC SQL é;".toList

/-- **A character beyond ASCII in a block shortens the masked bytes.** -/
theorem masked_source_misaligned :
    ¬ ∀ (cd : Codecs) (raw : List UInt8), Aligned (prepareProcBytes cd raw) := by
  intro h
  have hlen := (h asciiCodecs (encode sampleSource)).length
  have hdecode : (decodeSource asciiCodecs (encode sampleSource)).1 = sampleSource := by
    unfold decodeSource
    rw [decodeUtf8_encode]
  have hmasked : (prepareProcBytes asciiCodecs (encode sampleSource)).maskedBytes =
      encode (maskExecutableSql asciiCodecs
        (decodeSource asciiCodecs (encode sampleSource)).1).1 := rfl
  have hsource : (prepareProcBytes asciiCodecs (encode sampleSource)).sourceBytes =
      encode (decodeSource asciiCodecs (encode sampleSource)).1 := rfl
  rw [hmasked, hsource, hdecode] at hlen
  exact absurd hlen (by decide)

end CortexHarness.Proc
