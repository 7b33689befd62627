import CortexHarness.Library.Dict
import CortexHarness.Library.Fallible
import CortexHarness.Library.Firsts
import CortexHarness.Library.Python
import CortexHarness.Proc.SourceMap

/-!
# The sidecar source map

Model of `parse_sidecar_map` (`proc_source_map.py:444-533`) and of `ProcMapEntry` and
`ProcSourceMap.lookup` (`:129-163`, `:239-315`) on the entries that it admits. The manifest is a
dict of JSON values; its spans are integers of either sign, so the entries and the lookup of
`SourceMap.lean`, whose spans are offsets into a text, are restated here over the integers.

Results:
* `lookup_embed`: on the entries of a line-directive map, the two lookups agree;
* `lookup_mapped_iff`: when a span is mapped, and to what;
* `lookup_sound_iff`: when a mapped span lies in the original span of every entry that covers it,
  and the result is the same in every order of the entries.

Model notes: an `OverflowError` of `int` is not caught by the source, and stops the parse; here it
is a malformed entry, as every other failure of `int`. In neither case is there a span to look up.
-/

namespace CortexHarness.Proc.Sidecar

open Json Fallible Table

variable (py : Python) (reprOf : Json → String)

/-! ## Entries and lookup -/

/-- `ProcMapEntry`. -/
structure ProcMapEntry where
  generatedStart : Int
  generatedEnd : Int
  originalStart : Int
  originalEnd : Int
  originalPath : String
  quality : MapQuality
  generatedCodeClass : String := "unmapped_generated"
  originalStartLine : Nat := 0
  originalEndLine : Nat := 0
  deriving Repr, DecidableEq

/-- `ProcMapEntry.__post_init__`. -/
def ProcMapEntry.validate (e : ProcMapEntry) : Except String ProcMapEntry :=
  if e.generatedEnd < e.generatedStart then .error "map spans must be ordered"
  else if 0 ≤ e.originalStart ∧ e.originalEnd < e.originalStart then
    .error "original byte span must be ordered when present"
  else if e.originalStart < 0 ∧ e.originalStartLine = 0 then
    .error "map entries require byte or line original coordinates"
  else if 0 < e.originalStartLine ∧ e.originalEndLine < e.originalStartLine then
    .error "original line span must be ordered when present"
  else .ok e

/-- `ProcMapEntry.covers`. -/
def ProcMapEntry.covers (e : ProcMapEntry) (start stop : Int) : Bool :=
  e.generatedStart ≤ start && stop ≤ e.generatedEnd

/-- `ProcSourceMap`. -/
structure ProcSourceMap where
  mapId : String
  provider : String
  originalPath : String
  generatedPath : String
  entries : List ProcMapEntry
  diagnostics : List (String × String)

/-- `ProcSourceMap.invalid_reason`. -/
def ProcSourceMap.invalidReason (map : ProcSourceMap) : String :=
  ((map.diagnostics.find? fun d => d.1 = "map_invalid").map Prod.snd).getD ""

/-- `ProcSourceMap._line_distance`. -/
def lineDistance (a b : Int) : Nat := if a = b then 0 else 1

/-- The target of an entry, as the conflict check compares it. -/
def ProcMapEntry.target (e : ProcMapEntry) : String × Int × Int × Nat × Nat :=
  (e.originalPath, e.originalStart, e.originalEnd, e.originalStartLine, e.originalEndLine)

/-- The projection of a span through an entry. -/
def ProcMapEntry.project (e : ProcMapEntry) (start stop : Int) : SpanLookup :=
  let offset := start - e.generatedStart
  let length := stop - start
  let line := e.originalStartLine + lineDistance e.generatedStart start
  { status := .mapped
    quality := e.quality
    originalPath := e.originalPath
    generatedCodeClass := e.generatedCodeClass
    originalStart := if 0 ≤ e.originalStart then e.originalStart + offset else -1
    originalEnd := if 0 ≤ e.originalStart then e.originalStart + offset + length else -1
    originalStartLine := if 0 < e.originalStartLine then line else 0
    originalEndLine := if 0 < e.originalStartLine then line else 0 }

/-- An entry that `lookup` counts for a span. -/
def ProcMapEntry.usable (e : ProcMapEntry) (start stop : Int) : Bool :=
  e.covers start stop && (e.quality ≠ .missing && e.quality ≠ .invalid)

/-- `ProcSourceMap.lookup`. -/
def ProcSourceMap.lookup (map : ProcSourceMap) (start stop : Int) : SpanLookup :=
  if map.invalidReason ≠ "" then
    { status := .invalid, quality := .invalid, reason := map.invalidReason }
  else
    let covering := map.entries.filter fun e => e.covers start stop
    if covering.any fun e => e.quality = .stale then
      { status := .stale, quality := .stale
        reason := "covering map entry is stale; quarantine previous evidence" }
    else
      let usable := covering.filter fun e => e.quality ≠ .missing && e.quality ≠ .invalid
      match usable with
      | [] => { status := .missing, reason := "no usable map entry covers the generated span" }
      | e :: _ =>
        if 1 < (usable.map ProcMapEntry.target).dedup.length then
          { status := .conflict, quality := .invalid
            reason := "multiple map entries disagree on the original target" }
        else e.project start stop

/-! ## The manifest -/

/-- `PROC_SOURCE_MAP_VERSION`. -/
def procSourceMapVersion : String := "proc-source-map-v1"

/-- `MAP_QUALITY_STATES`, under their texts. -/
def mapQualityStates : List (String × MapQuality) :=
  [("exact_span", .exactSpan), ("exact_line", .exactLine), ("line_directive", .lineDirective),
    ("inferred", .inferred), ("missing", .missing), ("stale", .stale), ("invalid", .invalid)]

/-- `str(row.get(key) or "")`. -/
def textOr (row : Row) (key : String) : String := py.strOr (find? row key) ""

/-- `type(value).__name__` -/
def typeName : Json → String
  | .null => "NoneType"
  | .bool _ => "bool"
  | .int _ => "int"
  | .float _ => "float"
  | .str _ => "str"
  | .arr _ => "list"
  | .obj _ => "dict"

/-- `value[i]`, for a small index. -/
def item (value : Json) (i : Nat) : Except String Json :=
  match value with
  | .arr items =>
    match items[i]? with
    | some v => .ok v
    | none => .error "list index out of range"
  | .str s =>
    match s.toList[i]? with
    | some c => .ok (.str (String.ofList [c]))
    | none => .error "string index out of range"
  | .obj _ => .error (toString i)
  | v => .error ("'" ++ typeName v ++ "' object is not subscriptable")

/-- `raw[key]`. -/
def member (raw : Json) (key : String) : Except String Json :=
  match raw with
  | .obj members =>
    match find? members key with
    | some v => .ok v
    | none => .error ("'" ++ key ++ "'")
  | .arr _ => .error "list indices must be integers or slices, not str"
  | .str _ => .error "string indices must be integers, not 'str'"
  | v => .error ("'" ++ typeName v ++ "' object is not subscriptable")

/-- `raw.get(key)`, once `raw` is known to be a dict. -/
def membersOf : Json → Row
  | .obj members => members
  | _ => []

/-- The quality that a text names. -/
def qualityOf (text : String) : Except String MapQuality :=
  match (mapQualityStates.find? fun q => q.1 = text).map Prod.snd with
  | some quality => .ok quality
  | none => .error ("unknown quality " ++ reprOf (.str text))

/-- The entry of one element of `entries`. -/
def entryOf (stale : Bool) (originalPath : String) (raw : Json) : Except String ProcMapEntry := do
  let genSpan ← member raw "generated"
  let origSpan ← member raw "original"
  let quality ← qualityOf reprOf (py.strOr (find? (membersOf raw) "quality") "exact_span")
  let generatedStart ← item genSpan 0 >>= py.int
  let generatedEnd ← item genSpan 1 >>= py.int
  let originalStart ← item origSpan 0 >>= py.int
  let originalEnd ← item origSpan 1 >>= py.int
  ProcMapEntry.validate {
    generatedStart, generatedEnd, originalStart, originalEnd, originalPath
    quality := if stale then .stale else quality
    generatedCodeClass := py.strOr (find? (membersOf raw) "generated_code_class")
      "unmapped_generated" }

/-- One round of the loop over the entries. -/
def numberedEntry (stale : Bool) (originalPath : String) (raw : Json × Nat) :
    Except String ProcMapEntry :=
  match entryOf py reprOf stale originalPath raw.1 with
  | .ok e => .ok e
  | .error message => .error ("malformed map entry " ++ toString raw.2 ++ ": " ++ message)

/-- `stale`: a hash of the manifest is not the expected one. -/
def isStaleMap (data : Row) (expectedOriginal expectedGenerated : String) : Bool :=
  (expectedOriginal ≠ "" && textOr py data "original_sha256" ≠ expectedOriginal) ||
    (expectedGenerated ≠ "" && textOr py data "generated_sha256" ≠ expectedGenerated)

/-- `invalid_map`. -/
def invalidMap (data : Row) (reason : String) : ProcSourceMap :=
  { mapId := textOr py data "map_id"
    provider := "sidecar"
    originalPath := textOr py data "original_path"
    generatedPath := textOr py data "generated_path"
    entries := []
    diagnostics := [("map_invalid", reason)] }

/-- The map of a manifest with a list of entries. -/
def sidecarMap (data : Row) (stale : Bool) (raws : List Json) : ProcSourceMap :=
  let originalPath := py.strDefault (find? data "original_path") "None"
  match (raws.take maxMapEntries).zipIdx.mapM (numberedEntry py reprOf stale originalPath) with
  | .error reason => invalidMap py data reason
  | .ok entries =>
    { mapId := textOr py data "map_id"
      provider := "sidecar"
      originalPath
      generatedPath := py.strDefault (find? data "generated_path") "None"
      entries
      diagnostics :=
        (if maxMapEntries < raws.length then
          [("map_entry_cap", "map entries capped at " ++ toString maxMapEntries)] else []) ++
        (if stale then [("map_stale",
          "sidecar map hashes do not match the supplied original/generated artifacts")] else []) }

/-- `parse_sidecar_map`. -/
def parseSidecarMap (data : Row) (expectedOriginal expectedGenerated : String) : ProcSourceMap :=
  if textOr py data "version" ≠ procSourceMapVersion then
    invalidMap py data ("unsupported sidecar map version: " ++ reprOf (field data "version"))
  else
    match field data "entries" with
    | .arr raws =>
      match ["original_path", "generated_path"].find? fun name => blank (textOr py data name) with
      | some name => invalidMap py data ("sidecar map requires " ++ name)
      | none =>
        sidecarMap py reprOf data (isStaleMap py data expectedOriginal expectedGenerated) raws
    | _ => invalidMap py data "sidecar map requires an entries list"

/-! ## The line-directive map -/

/-- An entry of a line-directive map. -/
def embed (e : Proc.ProcMapEntry) : ProcMapEntry :=
  { generatedStart := e.generatedStart, generatedEnd := e.generatedEnd
    originalStart := e.originalStart, originalEnd := e.originalEnd, originalPath := e.originalPath
    quality := e.quality, generatedCodeClass := e.generatedCodeClass
    originalStartLine := e.originalStartLine, originalEndLine := e.originalEndLine }

/-- **On the entries of a line-directive map, the two lookups agree.** -/
theorem lookup_embed (map : Proc.ProcSourceMap) (m : ProcSourceMap)
    (hentries : m.entries = map.entries.map embed) (hdiagnostics : m.diagnostics = map.diagnostics)
    (start stop : Nat) : m.lookup start stop = map.lookup start stop := by
  have hreason : m.invalidReason = map.invalidReason := by
    unfold ProcSourceMap.invalidReason Proc.ProcSourceMap.invalidReason
    rw [hdiagnostics]
  have hcovers : (fun e : ProcMapEntry => e.covers start stop) ∘ embed =
      fun e => e.covers start stop := by
    funext e
    unfold Function.comp ProcMapEntry.covers Proc.ProcMapEntry.covers embed
    simp only [Int.ofNat_le]
  have htarget : ProcMapEntry.target ∘ embed = Proc.ProcMapEntry.target := rfl
  have hproject : ∀ e : Proc.ProcMapEntry, (embed e).project start stop = e.project start stop := by
    intro e
    have hline : lineDistance (embed e).generatedStart start =
        Proc.lineDistance e.generatedStart start := by
      unfold lineDistance Proc.lineDistance embed
      simp only [Int.ofNat_inj]
    unfold ProcMapEntry.project Proc.ProcMapEntry.project
    rw [hline]
    rfl
  unfold ProcSourceMap.lookup Proc.ProcSourceMap.lookup
  rw [hreason, hentries]
  split
  · rfl
  · simp only [List.filter_map, hcovers, List.any_map]
    have hstale : (fun e : ProcMapEntry => decide (e.quality = .stale)) ∘ embed =
        fun e => decide (e.quality = .stale) := rfl
    have husable : (fun e : ProcMapEntry => decide (e.quality ≠ .missing) &&
        decide (e.quality ≠ .invalid)) ∘ embed =
          fun e => decide (e.quality ≠ .missing) && decide (e.quality ≠ .invalid) := rfl
    rw [hstale, husable]
    split
    · rfl
    · generalize ((map.entries.filter fun e => e.covers start stop).filter fun e =>
        decide (e.quality ≠ .missing) && decide (e.quality ≠ .invalid)) = usable
      cases usable with
      | nil => rfl
      | cons e es =>
        simp only [List.map_cons, List.map_map, htarget]
        have he : (embed e).target = e.target := rfl
        rw [he, hproject]

/-! ## When a span is mapped -/

variable {py reprOf} {map : ProcSourceMap} {start stop : Int}

/-- The entries that `lookup` counts. -/
def ProcSourceMap.usable (map : ProcSourceMap) (start stop : Int) : List ProcMapEntry :=
  map.entries.filter fun e => e.usable start stop

theorem covers_of_usable {e : ProcMapEntry} (h : e.usable start stop = true) :
    e.generatedStart ≤ start ∧ stop ≤ e.generatedEnd := by
  unfold ProcMapEntry.usable ProcMapEntry.covers at h
  simp only [Bool.and_eq_true, decide_eq_true_iff] at h
  exact h.1

theorem dedup_targets {e : ProcMapEntry} {es : List ProcMapEntry} :
    ¬ 1 < ((e :: es).map ProcMapEntry.target).dedup.length ↔
      ∀ e' ∈ e :: es, e'.target = e.target := by
  have hpos : 0 < ((e :: es).map ProcMapEntry.target).dedup.length :=
    List.length_pos_of_mem (List.mem_dedup.mpr List.mem_cons_self)
  have hone : ¬ 1 < ((e :: es).map ProcMapEntry.target).dedup.length ↔
      ((e :: es).map ProcMapEntry.target).dedup.length = 1 := by omega
  rw [hone, dedup_length_one]
  constructor
  · rintro ⟨-, hall⟩ e' he'
    exact hall _ (List.mem_map_of_mem he') _ (List.mem_map_of_mem List.mem_cons_self)
  · intro hall
    refine ⟨by simp, fun a ha b hb => ?_⟩
    obtain ⟨x, hx, rfl⟩ := List.mem_map.mp ha
    obtain ⟨y, hy, rfl⟩ := List.mem_map.mp hb
    rw [hall x hx, hall y hy]

/-- **When a span is mapped**: the map is valid, no entry that covers the span is stale, and those
that count agree on their target; the first of them projects it. -/
theorem lookup_mapped_iff {r : SpanLookup} (hr : r.status = .mapped) :
    map.lookup start stop = r ↔ map.invalidReason = "" ∧
      (∀ e ∈ map.entries, e.covers start stop = true → e.quality ≠ .stale) ∧
      ∃ e es, map.usable start stop = e :: es ∧ (∀ e' ∈ e :: es, e'.target = e.target) ∧
        r = e.project start stop := by
  have hstale : (((map.entries.filter fun e => e.covers start stop).any fun e =>
      decide (e.quality = .stale)) = true) ↔
        ¬ ∀ e ∈ map.entries, e.covers start stop = true → e.quality ≠ .stale := by
    rw [List.any_eq_true]
    push Not
    simp only [List.mem_filter, decide_eq_true_iff, and_assoc]
  have husable : ((map.entries.filter fun e => e.covers start stop).filter fun e =>
      decide (e.quality ≠ .missing) && decide (e.quality ≠ .invalid)) = map.usable start stop := by
    unfold ProcSourceMap.usable ProcMapEntry.usable
    rw [List.filter_filter]
    simp only [Bool.and_comm]
  unfold ProcSourceMap.lookup
  dsimp only
  rw [husable]
  by_cases hreason : map.invalidReason = ""
  swap
  · rw [if_pos hreason]
    refine iff_of_false ?_ fun h => hreason h.1
    rintro rfl
    cases hr
  rw [if_neg (not_not.mpr hreason)]
  by_cases hfresh : ∀ e ∈ map.entries, e.covers start stop = true → e.quality ≠ .stale
  swap
  · rw [if_pos (hstale.mpr hfresh)]
    refine iff_of_false ?_ fun h => hfresh h.2.1
    rintro rfl
    cases hr
  rw [if_neg fun h => hstale.mp h hfresh]
  cases husables : map.usable start stop with
  | nil =>
    refine iff_of_false ?_ ?_
    · rintro rfl
      cases hr
    · rintro ⟨-, -, e, es, he, -⟩
      cases he
  | cons e es =>
    dsimp only
    by_cases htargets : ∀ e' ∈ e :: es, e'.target = e.target
    · rw [if_neg (dedup_targets.mpr htargets)]
      constructor
      · rintro rfl
        exact ⟨hreason, hfresh, e, es, rfl, htargets, rfl⟩
      · rintro ⟨-, -, e', es', he', -, rfl⟩
        cases he'
        rfl
    · rw [if_pos (not_not.mp (mt dedup_targets.mp htargets))]
      refine iff_of_false ?_ ?_
      · rintro rfl
        cases hr
      · rintro ⟨-, -, e', es', he', hall, -⟩
        cases he'
        exact htargets hall

/-! ## The entries of a manifest -/

theorem validate_ok {e e' : ProcMapEntry} (h : e.validate = .ok e') :
    e' = e ∧ e.generatedStart ≤ e.generatedEnd ∧
      (e.originalStartLine = 0 → 0 ≤ e.originalStart ∧ e.originalStart ≤ e.originalEnd) := by
  unfold ProcMapEntry.validate at h
  split_ifs at h with h1 h2 h3 h4
  cases h
  refine ⟨rfl, by omega, fun hline => ?_⟩
  have hpos : 0 ≤ e.originalStart := by
    by_contra hneg
    exact h3 ⟨by omega, hline⟩
  exact ⟨hpos, by
    by_contra hlt
    exact h2 ⟨hpos, by omega⟩⟩

variable {stale : Bool} {path : String} {raw : Json} {e e' : ProcMapEntry}

/-- An entry of a manifest has byte spans in order, and no lines. -/
theorem entryOf_ok (h : entryOf py reprOf stale path raw = .ok e) :
    0 ≤ e.originalStart ∧ e.originalStartLine = 0 := by
  unfold entryOf at h
  obtain ⟨genSpan, -, h⟩ := bind_ok.mp h
  obtain ⟨origSpan, -, h⟩ := bind_ok.mp h
  obtain ⟨quality, -, h⟩ := bind_ok.mp h
  obtain ⟨generatedStart, -, h⟩ := bind_ok.mp h
  obtain ⟨generatedEnd, -, h⟩ := bind_ok.mp h
  obtain ⟨originalStart, -, h⟩ := bind_ok.mp h
  obtain ⟨originalEnd, -, h⟩ := bind_ok.mp h
  obtain ⟨rfl, -, hspan⟩ := validate_ok h
  exact ⟨(hspan rfl).1, rfl⟩

variable (py reprOf stale path start stop) in
/-- The span is mapped to `r` by the entries that are kept. -/
def Mapped (kept : List Json) (r : SpanLookup) : Prop :=
  ∃ entries, List.Forall₂ (fun raw e => entryOf py reprOf stale path raw = .ok e) kept entries ∧
    (∀ e ∈ entries, e.covers start stop = true → e.quality ≠ .stale) ∧
    ∃ e es, (entries.filter fun e => e.usable start stop) = e :: es ∧
      (∀ e' ∈ e :: es, e'.target = e.target) ∧ r = e.project start stop

theorem numberedEntry_ok {i : Nat} :
    numberedEntry py reprOf stale path (raw, i) = .ok e ↔
      entryOf py reprOf stale path raw = .ok e := by
  unfold numberedEntry
  cases entryOf py reprOf stale path raw <;> simp

theorem mapM_numbered {kept : List Json} {entries : List ProcMapEntry} :
    kept.zipIdx.mapM (numberedEntry py reprOf stale path) = .ok entries ↔
      List.Forall₂ (fun raw e => entryOf py reprOf stale path raw = .ok e) kept entries := by
  suffices h : ∀ n, (kept.zipIdx n).mapM (numberedEntry py reprOf stale path) = .ok entries ↔
      List.Forall₂ (fun raw e => entryOf py reprOf stale path raw = .ok e) kept entries from h 0
  induction kept generalizing entries with
  | nil =>
    intro n
    cases entries with
    | nil => exact ⟨fun _ => .nil, fun _ => rfl⟩
    | cons e es => exact ⟨fun h => (by cases h), fun h => (by cases h)⟩
  | cons raw kept ih =>
    intro n
    rw [List.zipIdx_cons, List.mapM_cons]
    constructor
    · intro h
      obtain ⟨e, he, h⟩ := bind_ok.mp h
      obtain ⟨es, hes, h⟩ := bind_ok.mp h
      cases h
      exact .cons (numberedEntry_ok.mp he) ((ih (n + 1)).mp hes)
    · rintro (_ | ⟨he, hes⟩)
      exact bind_ok.mpr ⟨_, numberedEntry_ok.mpr he, bind_ok.mpr ⟨_, (ih (n + 1)).mpr hes, rfl⟩⟩

theorem sidecar_mapped_iff {data : Row} {raws : List Json} {r : SpanLookup}
    (hr : r.status = .mapped) :
    (sidecarMap py reprOf data stale raws).lookup start stop = r ↔
      Mapped py reprOf start stop stale (py.strDefault (find? data "original_path") "None")
        (raws.take maxMapEntries) r := by
  have hmapped := @lookup_mapped_iff (sidecarMap py reprOf data stale raws) start stop r hr
  unfold sidecarMap at hmapped ⊢
  dsimp only at hmapped ⊢
  cases hparse : (raws.take maxMapEntries).zipIdx.mapM (numberedEntry py reprOf stale
      (py.strDefault (find? data "original_path") "None")) with
  | error reason =>
    rw [hparse] at hmapped
    refine iff_of_false ?_ ?_
    · intro h
      obtain ⟨-, -, e, es, he, -⟩ := hmapped.mp h
      cases he
    · rintro ⟨entries, hentries, -⟩
      rw [mapM_numbered.mpr hentries] at hparse
      cases hparse
  | ok entries =>
    rw [hparse] at hmapped
    have hentries := mapM_numbered.mp hparse
    rw [hmapped]
    constructor
    · rintro ⟨-, hfresh, hfirst⟩
      exact ⟨entries, hentries, hfresh, hfirst⟩
    · rintro ⟨entries', hentries', hfresh, hfirst⟩
      have hsame : entries' = entries := by
        rw [mapM_numbered.mpr hentries'] at hparse
        exact Except.ok.inj hparse
      subst hsame
      refine ⟨?_, hfresh, hfirst⟩
      unfold ProcSourceMap.invalidReason
      dsimp only
      split_ifs <;> rfl

/-! ## The order of the entries -/

theorem forall₂_mem {α β : Type} {R : α → β → Prop} {xs : List α} {ys : List β}
    (h : List.Forall₂ R xs ys) {x : α} (hx : x ∈ xs) : ∃ y ∈ ys, R x y := by
  induction h with
  | nil => cases hx
  | cons hxy _ ih =>
    rcases List.mem_cons.mp hx with rfl | hx
    · exact ⟨_, List.mem_cons_self, hxy⟩
    · obtain ⟨y, hy, hr⟩ := ih hx
      exact ⟨y, List.mem_cons_of_mem _ hy, hr⟩

theorem forall₂_mem' {α β : Type} {R : α → β → Prop} {xs : List α} {ys : List β}
    (h : List.Forall₂ R xs ys) {y : β} (hy : y ∈ ys) : ∃ x ∈ xs, R x y :=
  forall₂_mem h.flip hy

/-- Two entries project every span alike. -/
structure SameProjection (e e' : ProcMapEntry) : Prop where
  target : e'.target = e.target
  generatedStart : e'.generatedStart = e.generatedStart
  quality : e'.quality = e.quality
  codeClass : e'.generatedCodeClass = e.generatedCodeClass

theorem SameProjection.project_eq (h : SameProjection e e') (start stop : Int) :
    e'.project start stop = e.project start stop := by
  obtain ⟨ht, hs, hq, hc⟩ := h
  unfold ProcMapEntry.target at ht
  simp only [Prod.mk.injEq] at ht
  obtain ⟨hpath, hstart, hend, hline, hendLine⟩ := ht
  unfold ProcMapEntry.project
  simp only [hpath, hstart, hline, hs, hq, hc]

theorem SameProjection.bounds (h : SameProjection e e') :
    e'.originalStart = e.originalStart ∧ e'.originalEnd = e.originalEnd := by
  have ht := h.target
  unfold ProcMapEntry.target at ht
  simp only [Prod.mk.injEq] at ht
  exact ⟨ht.2.1, ht.2.2.1⟩

/-- Entries of a manifest with one target that project a span alike project all alike. -/
theorem sameProjection_of_eq (hpos : 0 ≤ e.originalStart) (ht : e'.target = e.target)
    (h : e'.project start stop = e.project start stop) : SameProjection e e' := by
  have hstart : e'.originalStart = e.originalStart :=
    congrArg (fun t : String × Int × Int × Nat × Nat => t.2.1) ht
  have hspan := congrArg SpanLookup.originalStart h
  have hq := congrArg SpanLookup.quality h
  have hc := congrArg SpanLookup.generatedCodeClass h
  unfold ProcMapEntry.project at hspan hq hc
  dsimp only at hspan hq hc
  rw [hstart, if_pos hpos, if_pos hpos] at hspan
  exact ⟨ht, by omega, hq, hc⟩

variable (py reprOf start stop stale path) in
/-- The element is an entry that counts for the span. -/
def counts (raw : Json) : Bool :=
  match entryOf py reprOf stale path raw with
  | .ok e => e.usable start stop
  | .error _ => false

theorem counts_iff : counts py reprOf start stop stale path raw = true ↔
    ∃ e, entryOf py reprOf stale path raw = .ok e ∧ e.usable start stop = true := by
  unfold counts
  cases entryOf py reprOf stale path raw with
  | ok e => simp
  | error m => simp

variable (py reprOf start stop stale path) in
/-- No order of the entries changes what the span is mapped to: they are well formed, none that
covers the span is stale, those that count project alike, and those that do not count do not fill
the map. -/
structure OrderFree (raws : List Json) : Prop where
  wellFormed : ∀ raw ∈ raws, ∃ e, entryOf py reprOf stale path raw = .ok e
  fresh : ∀ raw ∈ raws, ∀ e, entryOf py reprOf stale path raw = .ok e →
    e.covers start stop = true → e.quality ≠ .stale
  agree : ∀ raw ∈ raws, ∀ raw' ∈ raws, ∀ e e', entryOf py reprOf stale path raw = .ok e →
    e.usable start stop = true → entryOf py reprOf stale path raw' = .ok e' →
    e'.usable start stop = true → SameProjection e e'
  enough : raws.countP (fun raw => !counts py reprOf start stop stale path raw) < maxMapEntries

variable {kept raws : List Json} {r : SpanLookup}

/-- The first entry of a map that maps the span is well formed and not stale; if it counts, it
projects the span, and all others that count have its target. -/
theorem Mapped.head (h : Mapped py reprOf start stop stale path (raw :: kept) r) :
    ∃ e, entryOf py reprOf stale path raw = .ok e ∧
      (e.covers start stop = true → e.quality ≠ .stale) ∧
      (e.usable start stop = true → r = e.project start stop ∧
        ∀ raw' ∈ kept, ∀ e', entryOf py reprOf stale path raw' = .ok e' →
          e'.usable start stop = true → e'.target = e.target) := by
  obtain ⟨entries, hentries, hfresh, first, rest, hfilter, htargets, rfl⟩ := h
  cases hentries with
  | @cons _ e _ es he hes =>
    refine ⟨e, he, hfresh e List.mem_cons_self, fun husable => ?_⟩
    have hcons := List.filter_cons_of_pos (p := fun e : ProcMapEntry => e.usable start stop)
      (l := es) husable
    rw [hcons] at hfilter
    obtain ⟨rfl, rfl⟩ := List.cons.inj hfilter
    refine ⟨rfl, fun raw' hraw' e' he' husable' => htargets e' (List.mem_cons_of_mem _ ?_)⟩
    refine List.mem_filter.mpr ⟨?_, husable'⟩
    obtain ⟨x, hx, hex⟩ := forall₂_mem hes hraw'
    rw [he'] at hex
    cases hex
    exact hx

theorem Mapped.exists_counts (h : Mapped py reprOf start stop stale path kept r) :
    ∃ raw ∈ kept, ∃ e, entryOf py reprOf stale path raw = .ok e ∧ e.usable start stop = true ∧
      r = e.project start stop := by
  obtain ⟨entries, hentries, -, e, es, hfilter, -, rfl⟩ := h
  have hmem : e ∈ entries.filter fun e => e.usable start stop := by
    rw [hfilter]
    exact List.mem_cons_self
  obtain ⟨he, husable⟩ := List.mem_filter.mp hmem
  obtain ⟨raw, hraw, heq⟩ := forall₂_mem' hentries he
  exact ⟨raw, hraw, e, heq, husable, rfl⟩

/-- Entries that are well formed and fresh, and of which those that count project alike, map the
span if one counts. -/
theorem mapped_of_agree {e : ProcMapEntry}
    (hok : ∀ raw ∈ kept, ∃ e', entryOf py reprOf stale path raw = .ok e' ∧
      (e'.covers start stop = true → e'.quality ≠ .stale) ∧
      (e'.usable start stop = true → SameProjection e e'))
    (hone : ∃ raw ∈ kept, counts py reprOf start stop stale path raw = true) :
    Mapped py reprOf start stop stale path kept (e.project start stop) := by
  obtain ⟨entries, hentries⟩ := mapM_succeeds (f := entryOf py reprOf stale path) fun raw hraw =>
    (hok raw hraw).imp fun _ h => h.1
  have hall := mapM_ok hentries
  have hmem : ∀ e' ∈ entries, (e'.covers start stop = true → e'.quality ≠ .stale) ∧
      (e'.usable start stop = true → SameProjection e e') := by
    intro e' he'
    obtain ⟨raw, hraw, heq⟩ := mapM_mem hentries e' he'
    obtain ⟨x, hx, hfresh, hsame⟩ := hok raw hraw
    rw [heq] at hx
    cases hx
    exact ⟨hfresh, hsame⟩
  refine ⟨entries, hall, fun e' he' => (hmem e' he').1, ?_⟩
  obtain ⟨raw, hraw, hcounts⟩ := hone
  obtain ⟨x, hx, husable⟩ := counts_iff.mp hcounts
  obtain ⟨y, hy, hxy⟩ := mapM_item hentries raw hraw
  rw [hx] at hxy
  cases hxy
  have hfilter : x ∈ entries.filter fun e => e.usable start stop :=
    List.mem_filter.mpr ⟨hy, husable⟩
  cases hf : entries.filter fun e => e.usable start stop with
  | nil =>
    rw [hf] at hfilter
    cases hfilter
  | cons first rest =>
    have hsame : ∀ e' ∈ first :: rest, SameProjection e e' := by
      intro e' he'
      rw [← hf] at he'
      obtain ⟨hin, hu⟩ := List.mem_filter.mp he'
      exact (hmem e' hin).2 hu
    have hfirst := hsame first List.mem_cons_self
    refine ⟨first, rest, rfl, fun e' he' => ?_, (hfirst.project_eq start stop).symm⟩
    rw [(hsame e' he').target, hfirst.target]

theorem OrderFree.mapped (h : OrderFree py reprOf start stop stale path raws)
    (hr : Mapped py reprOf start stop stale path (raws.take maxMapEntries) r) {raws' : List Json}
    (hperm : raws.Perm raws') :
    Mapped py reprOf start stop stale path (raws'.take maxMapEntries) r := by
  obtain ⟨raw, hraw, e, he, husable, rfl⟩ := hr.exists_counts
  have hraw := List.mem_of_mem_take hraw
  refine mapped_of_agree (fun raw' hraw' => ?_) ?_
  · have hmem : raw' ∈ raws := hperm.mem_iff.mpr (List.mem_of_mem_take hraw')
    obtain ⟨e', he'⟩ := h.wellFormed raw' hmem
    exact ⟨e', he', h.fresh raw' hmem e' he', fun husable' =>
      h.agree raw hraw raw' hmem e e' he husable he' husable'⟩
  · -- the entries that do not count do not fill the arrangement
    by_contra hnone
    push Not at hnone
    have hall : (raws'.take maxMapEntries).countP
        (fun raw => !counts py reprOf start stop stale path raw) =
          (raws'.take maxMapEntries).length := by
      rw [List.countP_eq_length]
      intro x hx
      simpa using hnone x hx
    have hle : (raws'.take maxMapEntries).countP
        (fun raw => !counts py reprOf start stop stale path raw) ≤
          raws'.countP fun raw => !counts py reprOf start stop stale path raw :=
      (List.take_sublist _ _).countP_le
    rw [hall, List.length_take, ← hperm.countP_eq] at hle
    have henough := h.enough
    have hlong : raws'.length < maxMapEntries := by omega
    refine hnone raw ?_ (counts_iff.mpr ⟨e, he, husable⟩)
    rw [List.take_of_length_le (by omega)]
    exact hperm.mem_iff.mp hraw

/-- **The order of the entries** changes nothing exactly when it is free. -/
theorem mapped_perm_iff
    (hr : Mapped py reprOf start stop stale path (raws.take maxMapEntries) r) :
    (∀ raws', raws.Perm raws' →
        Mapped py reprOf start stop stale path (raws'.take maxMapEntries) r) ↔
      OrderFree py reprOf start stop stale path raws := by
  refine ⟨fun h => ?_, fun h raws' hperm => h.mapped hr hperm⟩
  -- every element may come first, or the first two
  have hfirst : ∀ raw ∈ raws, ∃ rest, raws.Perm (raw :: rest) := by
    intro raw hraw
    obtain ⟨before, after, rfl⟩ := List.append_of_mem hraw
    exact ⟨before ++ after, List.perm_middle⟩
  have hhead : ∀ raw ∈ raws, ∃ kept, Mapped py reprOf start stop stale path (raw :: kept) r := by
    intro raw hraw
    obtain ⟨rest, hperm⟩ := hfirst raw hraw
    exact ⟨rest.take 199999, h _ hperm⟩
  refine ⟨fun raw hraw => ?_, fun raw hraw e he => ?_,
    fun raw hraw raw' hraw' e e' he hu he' hu' => ?_, ?_⟩
  · obtain ⟨kept, hk⟩ := hhead raw hraw
    obtain ⟨e, he, -⟩ := hk.head
    exact ⟨e, he⟩
  · obtain ⟨kept, hk⟩ := hhead raw hraw
    obtain ⟨x, hx, hfresh, -⟩ := hk.head
    rw [he] at hx
    cases hx
    exact hfresh
  · have hproject : ∀ raw ∈ raws, ∀ e, entryOf py reprOf stale path raw = .ok e →
        e.usable start stop = true → r = e.project start stop := by
      intro raw hraw e he hu
      obtain ⟨kept, hk⟩ := hhead raw hraw
      obtain ⟨x, hx, -, husable⟩ := hk.head
      rw [he] at hx
      cases hx
      exact (husable hu).1
    have htarget : e'.target = e.target := by
      obtain ⟨rest, hperm⟩ := hfirst raw hraw
      rcases List.mem_cons.mp (hperm.mem_iff.mp hraw') with rfl | hrest
      · rw [he] at he'
        cases he'
        rfl
      · obtain ⟨before, after, rfl⟩ := List.append_of_mem hrest
        have hperm' : raws.Perm (raw :: raw' :: (before ++ after)) :=
          hperm.trans (List.Perm.cons _ List.perm_middle)
        have hk : Mapped py reprOf start stop stale path
            (raw :: raw' :: (before ++ after).take 199998) r := h _ hperm'
        obtain ⟨x, hx, -, husable⟩ := hk.head
        rw [he] at hx
        cases hx
        exact (husable hu).2 raw' List.mem_cons_self e' he' hu'
    exact sameProjection_of_eq (entryOf_ok he).1 htarget
      ((hproject raw' hraw' e' he' hu').symm.trans (hproject raw hraw e he hu))
  · by_contra hfull
    rw [not_lt] at hfull
    -- the elements that do not count come first
    have hperm : raws.Perm ((raws.filter fun raw => !counts py reprOf start stop stale path raw) ++
        raws.filter fun raw => !!counts py reprOf start stop stale path raw) :=
      (List.filter_append_perm _ _).symm
    obtain ⟨raw, hraw, e, he, husable, -⟩ := (h _ hperm).exists_counts
    rw [List.take_append_of_le_length (by rwa [← List.countP_eq_length_filter])] at hraw
    have hno := (List.mem_filter.mp (List.mem_of_mem_take hraw)).2
    rw [counts_iff.mpr ⟨e, he, husable⟩] at hno
    cases hno

/-! ## The manifest of a mapped span -/

variable {data : Row} {expectedOriginal expectedGenerated : String}

/-- The manifest has the version and the paths of a sidecar map. -/
structure Headed (py : Python) (data : Row) : Prop where
  version : textOr py data "version" = procSourceMapVersion
  paths : (["original_path", "generated_path"].find? fun name => blank (textOr py data name)) = none

theorem parse_eq (h : Headed py data) (hraws : field data "entries" = .arr raws) :
    parseSidecarMap py reprOf data expectedOriginal expectedGenerated =
      sidecarMap py reprOf data (isStaleMap py data expectedOriginal expectedGenerated) raws := by
  unfold parseSidecarMap
  rw [if_neg (not_not.mpr h.version), hraws]
  dsimp only
  rw [h.paths]

theorem invalidMap_unmapped (reason : String) :
    ((invalidMap py data reason).lookup start stop).status ≠ .mapped := by
  intro h
  obtain ⟨-, -, e, es, he, -⟩ := (lookup_mapped_iff h).mp rfl
  cases he

theorem parse_headed (h : ((parseSidecarMap py reprOf data expectedOriginal
      expectedGenerated).lookup start stop).status = .mapped) :
    Headed py data ∧ ∃ raws, field data "entries" = .arr raws := by
  unfold parseSidecarMap at h
  split at h
  · exact absurd h (invalidMap_unmapped _)
  · next hversion =>
    split at h
    · next raws hraws =>
      split at h
      · exact absurd h (invalidMap_unmapped _)
      · next hpaths => exact ⟨⟨not_not.mp hversion, hpaths⟩, raws, hraws⟩
    · exact absurd h (invalidMap_unmapped _)

/-- `original_path` of the manifest. -/
def originalPathOf (py : Python) (data : Row) : String :=
  py.strDefault (find? data "original_path") "None"

theorem textOr_put {key : String} (hkey : key ≠ "entries") (v : Json) :
    textOr py (put data "entries" v) key = textOr py data key := by
  unfold textOr
  rw [find?_put, if_neg hkey]

theorem headed_put (h : Headed py data) (v : Json) : Headed py (put data "entries" v) := by
  obtain ⟨hversion, hpaths⟩ := h
  refine ⟨(textOr_put (by decide) v).trans hversion, ?_⟩
  simp only [List.find?_cons, textOr_put (show "original_path" ≠ "entries" by decide),
    textOr_put (show "generated_path" ≠ "entries" by decide)] at hpaths ⊢
  exact hpaths

theorem isStaleMap_put (v : Json) : isStaleMap py (put data "entries" v) expectedOriginal
    expectedGenerated = isStaleMap py data expectedOriginal expectedGenerated := by
  unfold isStaleMap
  rw [textOr_put (by decide), textOr_put (by decide)]

theorem originalPathOf_put (v : Json) :
    originalPathOf py (put data "entries" v) = originalPathOf py data := by
  unfold originalPathOf
  rw [find?_put, if_neg (by decide)]

/-- **What a manifest maps**, in any order of its entries. -/
theorem parse_mapped_iff (h : Headed py data) (hr : r.status = .mapped) :
    (parseSidecarMap py reprOf (put data "entries" (.arr raws)) expectedOriginal
        expectedGenerated).lookup start stop = r ↔
      Mapped py reprOf start stop (isStaleMap py data expectedOriginal expectedGenerated)
        (originalPathOf py data) (raws.take maxMapEntries) r := by
  have hfield : field (put data "entries" (.arr raws)) "entries" = .arr raws := by
    rw [field_put, if_pos rfl]
  have hpath : py.strDefault (find? (put data "entries" (.arr raws)) "original_path") "None" =
      originalPathOf py data := originalPathOf_put _
  rw [parse_eq (headed_put h _) hfield, isStaleMap_put, sidecar_mapped_iff hr, hpath]

theorem sidecar_entries {e : ProcMapEntry}
    (he : e ∈ (sidecarMap py reprOf data stale raws).entries) :
    ∃ raw ∈ raws, entryOf py reprOf stale (originalPathOf py data) raw = .ok e := by
  unfold sidecarMap at he
  dsimp only at he
  split at he
  · cases he
  · next entries hentries =>
    obtain ⟨raw, hraw, heq⟩ := forall₂_mem' (mapM_numbered.mp hentries) he
    exact ⟨raw, List.mem_of_mem_take hraw, heq⟩

/-! ## Soundness -/

variable (py reprOf data expectedOriginal expectedGenerated start stop)

/-- A lookup is sound: the span it returns lies in the original span of every entry that counts, and
is the projection through it; and the result is the same for every order of the entries. -/
structure LookupSound : Prop where
  inside : ∀ e ∈ (parseSidecarMap py reprOf data expectedOriginal expectedGenerated).usable start
      stop,
    let result := (parseSidecarMap py reprOf data expectedOriginal expectedGenerated).lookup start
      stop
    e.originalStart ≤ result.originalStart ∧ result.originalEnd ≤ e.originalEnd
  projected : ∀ e ∈ (parseSidecarMap py reprOf data expectedOriginal expectedGenerated).usable start
      stop,
    let result := (parseSidecarMap py reprOf data expectedOriginal expectedGenerated).lookup start
      stop
    result.originalStart = e.originalStart + (start - e.generatedStart) ∧
      result.originalEnd = e.originalStart + (stop - e.generatedStart)
  ordered : ∀ raws raws', field data "entries" = .arr raws → raws.Perm raws' →
    (parseSidecarMap py reprOf (put data "entries" (.arr raws')) expectedOriginal
        expectedGenerated).lookup start stop =
      (parseSidecarMap py reprOf data expectedOriginal expectedGenerated).lookup start stop

/-- The entries of the manifest that count for the span agree, and are long enough for it. -/
structure SpanCondition : Prop where
  order : ∀ raws, field data "entries" = .arr raws → OrderFree py reprOf start stop
    (isStaleMap py data expectedOriginal expectedGenerated) (originalPathOf py data) raws
  fits : ∀ raws, field data "entries" = .arr raws → ∀ raw ∈ raws, ∀ e,
    entryOf py reprOf (isStaleMap py data expectedOriginal expectedGenerated)
      (originalPathOf py data) raw = .ok e → e.usable start stop = true →
    stop - e.generatedStart ≤ e.originalEnd - e.originalStart

variable {py reprOf data expectedOriginal expectedGenerated start stop}

theorem project_span {e : ProcMapEntry} (hpos : 0 ≤ e.originalStart) :
    (e.project start stop).originalStart = e.originalStart + (start - e.generatedStart) ∧
      (e.project start stop).originalEnd = e.originalStart + (stop - e.generatedStart) := by
  unfold ProcMapEntry.project
  dsimp only
  rw [if_pos hpos, if_pos hpos]
  exact ⟨rfl, by omega⟩

/-- **A mapped span is sound** exactly when the entries of the manifest that count for it agree on
their original span, generated start, quality and class, the span ends within their original
length, and no order of the entries brings in another result: every one is well formed, none that
covers the span is stale, and those that do not count do not fill the map. -/
theorem lookup_sound_iff (h : ((parseSidecarMap py reprOf data expectedOriginal
      expectedGenerated).lookup start stop).status = .mapped) :
    LookupSound py reprOf start stop data expectedOriginal expectedGenerated ↔
      SpanCondition py reprOf start stop data expectedOriginal expectedGenerated := by
  obtain ⟨hhead, raws, hraws⟩ := parse_headed h
  have hparse : parseSidecarMap py reprOf data expectedOriginal expectedGenerated =
      sidecarMap py reprOf data (isStaleMap py data expectedOriginal expectedGenerated) raws :=
    parse_eq hhead hraws
  have hmapped : Mapped py reprOf start stop
      (isStaleMap py data expectedOriginal expectedGenerated) (originalPathOf py data)
      (raws.take maxMapEntries) ((parseSidecarMap py reprOf data expectedOriginal
        expectedGenerated).lookup start stop) :=
    (sidecar_mapped_iff h).mp (by rw [hparse])
  -- the first entry that counts gives the result
  obtain ⟨-, -, e₀, es, hfirst, -, hresult⟩ := (lookup_mapped_iff h).mp rfl
  have hin₀ : e₀ ∈ (parseSidecarMap py reprOf data expectedOriginal
      expectedGenerated).usable start stop := by
    rw [hfirst]
    exact List.mem_cons_self
  have hcounted : ∀ e ∈ (parseSidecarMap py reprOf data expectedOriginal
      expectedGenerated).usable start stop, e.usable start stop = true ∧ ∃ raw ∈ raws,
        entryOf py reprOf (isStaleMap py data expectedOriginal expectedGenerated)
          (originalPathOf py data) raw = .ok e := by
    intro e he
    obtain ⟨hentry, husable⟩ := List.mem_filter.mp he
    rw [hparse] at hentry
    exact ⟨husable, sidecar_entries hentry⟩
  obtain ⟨husable₀, raw₀, hraw₀, he₀⟩ := hcounted e₀ hin₀
  have hspan₀ := @project_span start stop e₀ (entryOf_ok he₀).1
  constructor
  · intro hsound
    have horder := (mapped_perm_iff hmapped).mp fun raws' hperm =>
      (parse_mapped_iff hhead h).mp (hsound.ordered raws raws' hraws hperm)
    refine ⟨fun raws' hraws' => ?_, fun raws' hraws' raw hraw e he husable => ?_⟩
    · rw [hraws] at hraws'
      cases hraws'
      exact horder
    · rw [hraws] at hraws'
      cases hraws'
      have hsame := horder.agree raw₀ hraw₀ raw hraw e₀ e he₀ husable₀ he husable
      have hinside := (hsound.inside e₀ hin₀).2
      rw [hresult, hspan₀.2] at hinside
      have hbounds := hsame.bounds
      have hstart := hsame.generatedStart
      omega
  · intro hcond
    have horder := hcond.order raws hraws
    have hsame : ∀ e ∈ (parseSidecarMap py reprOf data expectedOriginal
        expectedGenerated).usable start stop, SameProjection e₀ e := by
      intro e he
      obtain ⟨husable, raw, hraw, heq⟩ := hcounted e he
      exact horder.agree raw₀ hraw₀ raw hraw e₀ e he₀ husable₀ heq husable
    refine ⟨fun e he => ?_, fun e he => ?_, fun raws₁ raws' hraws₁ hperm => ?_⟩
    · have hcovers := covers_of_usable (hcounted e he).1
      have hfits := hcond.fits raws hraws raw₀ hraw₀ e₀ he₀ husable₀
      have hbounds := (hsame e he).bounds
      have hstart := (hsame e he).generatedStart
      dsimp only
      rw [hresult, hspan₀.1, hspan₀.2]
      constructor <;> omega
    · have hbounds := (hsame e he).bounds
      have hstart := (hsame e he).generatedStart
      dsimp only
      rw [hresult, hspan₀.1, hspan₀.2]
      constructor <;> omega
    · rw [hraws] at hraws₁
      cases hraws₁
      exact (parse_mapped_iff hhead h).mpr (horder.mapped hmapped hperm)

/-! ## Samples -/

def samplePython : Python where
  sha256Hex text := text
  reprContainer _ := ""
  casefold text := text
  parseInt _ := .error "invalid literal for int() with base 10"

/-- An element of `entries`. -/
def sampleEntry (generatedStart generatedEnd originalStart originalEnd : Int) : Json :=
  .obj [("generated", .arr [.int generatedStart, .int generatedEnd]),
    ("original", .arr [.int originalStart, .int originalEnd])]

/-- A manifest with one entry. -/
def sampleManifest (entry : Json) : Row :=
  [("version", .str "proc-source-map-v1"), ("original_path", .str "src/app.pc"),
    ("generated_path", .str "gen/app.c"), ("entries", .arr [entry])]

/-- The entry of a map. -/
def sampleMapEntry (originalEnd : Int) : ProcMapEntry :=
  { generatedStart := 0, generatedEnd := 100, originalStart := 0, originalEnd
    originalPath := "src/app.pc", quality := .exactSpan }

theorem sample_parse (originalEnd : Int) (hpos : 0 ≤ originalEnd) :
    entryOf samplePython (fun _ => "") false "src/app.pc" (sampleEntry 0 100 0 originalEnd) =
      .ok (sampleMapEntry originalEnd) := by
  have hvalid : (sampleMapEntry originalEnd).validate = .ok (sampleMapEntry originalEnd) := by
    unfold ProcMapEntry.validate sampleMapEntry
    dsimp only
    rw [if_neg (by decide), if_neg (by omega), if_neg (by decide), if_neg (by decide)]
  exact hvalid

theorem lookup_sound_sample : LookupSound samplePython (fun _ => "") 50 60
    (sampleManifest (sampleEntry 0 100 0 100)) "" "" := by
  have hstale : isStaleMap samplePython (sampleManifest (sampleEntry 0 100 0 100)) "" "" =
      false := by decide +kernel
  have hpath : originalPathOf samplePython (sampleManifest (sampleEntry 0 100 0 100)) =
      "src/app.pc" := by decide +kernel
  have hentry : ∀ raw ∈ [sampleEntry 0 100 0 100], ∀ e,
      entryOf samplePython (fun _ => "") false "src/app.pc" raw = .ok e →
        e = sampleMapEntry 100 := by
    intro raw hraw e he
    rw [List.mem_singleton.mp hraw, sample_parse 100 (by decide)] at he
    exact (Except.ok.inj he).symm
  refine (lookup_sound_iff (by decide +kernel)).mpr ⟨fun raws hraws => ?_, fun raws hraws => ?_⟩
  · cases hraws
    rw [hstale, hpath]
    refine ⟨fun raw hraw => ?_, fun raw hraw e he _ => ?_,
      fun raw hraw raw' hraw' e e' he _ he' _ => ?_, ?_⟩
    · exact ⟨_, List.mem_singleton.mp hraw ▸ sample_parse 100 (by decide)⟩
    · rw [hentry raw hraw e he]
      decide
    · rw [hentry raw hraw e he, hentry raw' hraw' e' he']
      exact ⟨rfl, rfl, rfl, rfl⟩
    · exact lt_of_le_of_lt List.countP_le_length (by decide)
  · cases hraws
    rw [hstale, hpath]
    intro raw hraw e he _
    rw [hentry raw hraw e he]
    decide

/-- **A span is mapped past the end of the original span**, when the generated span of the entry is
the longer one. -/
theorem longer_entry_escapes :
    ((parseSidecarMap samplePython (fun _ => "") (sampleManifest (sampleEntry 0 100 0 10)) ""
      "").lookup 50 60).status = .mapped ∧
    ¬LookupSound samplePython (fun _ => "") 50 60 (sampleManifest (sampleEntry 0 100 0 10)) ""
      "" := by
  refine ⟨by decide +kernel, fun h => ?_⟩
  have hmem : sampleMapEntry 10 ∈ (parseSidecarMap samplePython (fun _ => "")
      (sampleManifest (sampleEntry 0 100 0 10)) "" "").usable 50 60 := by decide +kernel
  have hend : ((parseSidecarMap samplePython (fun _ => "") (sampleManifest (sampleEntry 0 100 0 10))
      "" "").lookup 50 60).originalEnd = 60 := by decide +kernel
  have hinside := (h.inside _ hmem).2
  rw [hend] at hinside
  exact absurd hinside (by decide)

end CortexHarness.Proc.Sidecar
