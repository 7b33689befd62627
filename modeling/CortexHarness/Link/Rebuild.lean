import CortexHarness.Library.Fallible
import CortexHarness.Link.Build

/-!
# Building again

What a build leaves active is compared with what a reconcile build leaves, and with what the same
build leaves when it is run a second time.

* `activeShas` is the active part of the latest view: the hashes under each key;
* `kept` are the links an incremental build leaves alone: active, not drifted;
* `RoundTrips` says that the records of the build are found again under their own identity, and
  that records with one key carry the same hashes.

Results:
* `activeShas_after`: the active view after a build;
* **`incremental_agrees`**: an incremental build leaves what a reconcile build leaves, and the kept
  links whose pair is no longer made;
* **`second_build_quiet_iff`**: the second of two builds on the same inputs does nothing exactly
  when the records of the build round trip.
-/

namespace CortexHarness.Link

open Fallible Table

variable {P : Platform} {inp : Inputs} {env : Env} {s s' : Store} {report : BuildReport}

/-! ## The active view -/

variable (P) in
/-- The hashes of the active latest record of a key. -/
def activeShas (log : List Record) (k : RecordKey) : Option (Option String × Option String) :=
  (lookup (recordKey P) k (latestRecords P log)).bind fun r =>
    if r.isActive then some r.shas else none

variable (P inp) in
/-- The hashes of a link that is active and has not drifted. -/
def kept (log : List Record) (k : RecordKey) : Option (Option String × Option String) :=
  (lookup (recordKey P) k (latestRecords P log)).bind fun r =>
    if r.isActive && !drifted P inp r then some r.shas else none

theorem activeShas_append (log log' : List Record) (k : RecordKey) :
    activeShas P (log ++ log') k =
      match lookup (recordKey P) k (latestRecords P log') with
      | some r => if r.isActive then some r.shas else none
      | none => activeShas P log k := by
  unfold activeShas latestRecords
  rw [lookup_latest_append]
  cases lookup (recordKey P) k (latest (recordKey P) log') <;> rfl

/-- Validation changes neither what is found under a key nor its hashes; a record without a status
becomes active. -/
theorem lookup_prepared {now : String} {records written : List Record}
    (h : prepared now records = .ok written) (k : RecordKey) :
    (lookup (recordKey P) k (latestRecords P written)).map (fun r => (r.status, r.shas)) =
      (lookup (recordKey P) k (latestRecords P records)).map fun r =>
        (some (r.status.getD statusActive), r.shas) := by
  refine lookup_latest_forall₂ ((mapM_ok h).imp fun r r' hr => ?_) k
  obtain ⟨-, -, -, -, hstatus, -⟩ := validateRecord_ok hr
  exact ⟨recordKey_validated hr, by rw [hstatus, shas_validated hr]⟩

theorem activeShas_written {now : String} {records written : List Record}
    (h : prepared now records = .ok written) (log : List Record) (k : RecordKey) :
    activeShas P (log ++ written) k =
      match lookup (recordKey P) k (latestRecords P records) with
      | some r => if countsAsActive r then some r.shas else none
      | none => activeShas P log k := by
  have hp := lookup_prepared (P := P) h k
  rw [activeShas_append]
  cases hw : lookup (recordKey P) k (latestRecords P written) with
  | none =>
    rw [hw] at hp
    rw [Option.map_eq_none_iff.mp hp.symm]
  | some r' =>
    rw [hw] at hp
    obtain ⟨r, hr, he⟩ := Option.map_eq_some_iff.mp hp.symm
    obtain ⟨hstatus, hshas⟩ := Prod.mk.injEq .. ▸ he
    rw [hr]
    simp only [Record.isActive, countsAsActive, ← hstatus, hshas]
    rfl

theorem lookup_staleCopies (now : String) (predicate : Record → Bool) (log : List Record)
    (k : RecordKey) :
    lookup (recordKey P) k (latestRecords P (staleCopies P now predicate log)) =
      ((lookup (recordKey P) k (latestRecords P log)).filter fun r =>
        r.isActive && predicate r).map fun r =>
          { r with status := some statusStale, staledAt := some now } := by
  have hkeyed : Keyed (recordKey P) (latestRecords P log) := keyed_latest log
  have hcopies : Keyed (recordKey P) (staleCopies P now predicate log) :=
    (hkeyed.filter _).map fun r _ => rfl
  unfold latestRecords at hkeyed ⊢
  rw [latest_of_keyed hcopies]
  unfold staleCopies latestRecords
  rw [← hkeyed.lookup_filter]
  exact lookup_map _ fun r _ => rfl

theorem fresh_countsAsActive {r : Record} (h : r ∈ freshRecords P inp) :
    countsAsActive r = true := by
  obtain ⟨pair, -, rfl⟩ := List.mem_map.mp h
  rfl

/-- **The active view after a build**: the new links, and what was active and is not marked
stale. -/
theorem activeShas_after {reconcile : Bool}
    (h : buildLinks P inp env reconcile false s = (s', .ok report))
    (hsize : reconcile = false ∨ ¬ maxRawLogBytes < (s.log.map env.lineBytes).sum)
    (k : RecordKey) :
    activeShas P s'.log k =
      ((lookup (recordKey P) k (latestRecords P report.newLinks)).map Record.shas).or
        (if reconcile then none else kept P inp s.log k) := by
  obtain ⟨stale, fresh, hstaled, hnew, hstale, hfresh, hlog, -⟩ := buildLinks_ok h hsize
  rw [hlog, activeShas_written hfresh]
  cases hl : lookup (recordKey P) k (latestRecords P report.newLinks) with
  | some r =>
    have hr : r ∈ freshRecords P inp := by
      have := mem_of_mem_latest (lookup_mem hl)
      rw [hnew] at this
      exact List.mem_of_mem_filter this
    simp [fresh_countsAsActive hr]
  | none =>
    dsimp only
    rw [activeShas_written hstale, hstaled, lookup_staleCopies]
    unfold activeShas kept
    cases lookup (recordKey P) k (latestRecords P s.log) with
    | none => cases reconcile <;> rfl
    | some r =>
      cases hact : r.isActive with
      | false => cases reconcile <;> simp [Option.filter, hact]
      | true =>
        cases hd : drifted P inp r <;> cases reconcile <;>
          simp [Option.filter, hact, hd, countsAsActive, statusStale, statusActive]

/-! ## The records of a build -/

/-- The identity of a symbol with its lines left out. -/
def lineless (P : Platform) (s : EngineSymbol) : Identity :=
  identityOf P s.path s.name (.null, .null) s.targetType.text

variable (P inp) in
/-- **What makes a build repeatable.** A linked symbol without a start line is found again without
its lines, with hashes that do not contradict each other; and links that share a key are joined to
the same hash. -/
structure RoundTrips : Prop where
  found : ∀ pair ∈ scoredPairs P inp, pair.symbol.startLine = .null →
    (∃ s ∈ inp.symbols, s.identity P = lineless P pair.symbol) ∧
      contradicts (codeJoin P inp (lineless P pair.symbol)).1
        (codeJoin P inp (pair.symbol.identity P)).1 = false
  agree : ∀ pair ∈ scoredPairs P inp, ∀ pair' ∈ scoredPairs P inp,
    pair.paragraph.anchor P = pair'.paragraph.anchor P →
    lineless P pair.symbol = lineless P pair'.symbol →
    pair.symbol.startLine = .null → pair'.symbol.startLine = .null →
    (codeJoin P inp (pair.symbol.identity P)).1 = (codeJoin P inp (pair'.symbol.identity P)).1

theorem text_or (t : TargetType) : textOr t.text "symbol" = t.text := by
  cases t <;> rfl

theorem contradicts_self (a : Option String) : contradicts a a = false := by
  cases a <;> simp [contradicts]

theorem freshRecord_docId (pair : ScoredPair) :
    (freshRecord P inp pair).doc.docId = pair.paragraph.docId := rfl

theorem freshRecord_anchor (pair : ScoredPair) :
    (freshRecord P inp pair).anchor P = pair.paragraph.anchor P := rfl

theorem freshRecord_shas (pair : ScoredPair) : (freshRecord P inp pair).shas =
    (docJoin P inp pair.paragraph.docId, (codeJoin P inp (pair.symbol.identity P)).1) := by
  simp only [Record.shas, freshRecord, buildRecord]

theorem codeIdentityOf_fresh (pair : ScoredPair) :
    codeIdentityOf P (freshRecord P inp pair) =
      if pair.symbol.startLine = .null then lineless P pair.symbol else pair.symbol.identity P := by
  unfold codeIdentityOf freshRecord buildRecord lineless EngineSymbol.identity identityOf
  simp only [posixPath_posixPath, text_or]
  split <;> rfl

theorem drifted_fresh {pair : ScoredPair} (h : pair ∈ scoredPairs P inp) :
    drifted P inp (freshRecord P inp pair) = false ↔ (pair.symbol.startLine = .null →
      (∃ s ∈ inp.symbols, s.identity P = lineless P pair.symbol) ∧
        contradicts (codeJoin P inp (lineless P pair.symbol)).1
          (codeJoin P inp (pair.symbol.identity P)).1 = false) := by
  obtain ⟨hp, hs⟩ := mem_of_scored h
  have hanchor : (inp.paragraphs.any fun p => p.anchor P == pair.paragraph.anchor P) = true :=
    List.any_eq_true.mpr ⟨pair.paragraph, hp, beq_self_eq_true _⟩
  have hself : (inp.symbols.any fun s => s.identity P == pair.symbol.identity P) = true :=
    List.any_eq_true.mpr ⟨pair.symbol, hs, beq_self_eq_true _⟩
  obtain ⟨hdoc, hcode⟩ := Prod.mk.injEq .. ▸ @freshRecord_shas P inp pair
  unfold drifted shaChanged
  rw [freshRecord_anchor, freshRecord_docId, hanchor, hdoc, hcode, codeIdentityOf_fresh,
    contradicts_self]
  by_cases hnull : pair.symbol.startLine = .null
  · rw [if_pos hnull]
    simp only [hnull, forall_const, Bool.not_true, Bool.or_false, Bool.false_or,
      Bool.or_eq_false_iff, Bool.not_eq_false', List.any_eq_true, beq_iff_eq]
  · rw [if_neg hnull, hself, contradicts_self]
    simp [hnull]

theorem drifted_congr {r r' : Record} (hkey : recordKey P r = recordKey P r')
    (hshas : r.shas = r'.shas) : drifted P inp r = drifted P inp r' := by
  obtain ⟨hdoc, hpid, hpath, hname, hlines, htype⟩ := RecordKey.mk.injEq .. ▸ hkey
  obtain ⟨hds, hcs⟩ := Prod.mk.injEq .. ▸ hshas
  have hid : codeIdentityOf P r = codeIdentityOf P r' := by
    unfold codeIdentityOf identityOf
    rw [hpath, hname, htype]
    have hl : linesKey P r.code.lines = linesKey P r'.code.lines := hlines
    cases h : r.code.lines with
    | none =>
      cases h' : r'.code.lines with
      | none => rfl
      | some l => simp [linesKey, h, h'] at hl
    | some l =>
      cases h' : r'.code.lines with
      | none => simp [linesKey, h, h'] at hl
      | some l' =>
        simp only [linesKey, h, h', List.cons.injEq, and_true] at hl
        simp [hl]
  have hanchor : r.anchor P = r'.anchor P := Prod.ext hdoc hpid
  unfold drifted shaChanged
  rw [hid, hanchor, hdoc, hds, hcs]

theorem recordKey_fresh_lineless {pair pair' : ScoredPair}
    (h : recordKey P (freshRecord P inp pair) = recordKey P (freshRecord P inp pair')) :
    pair.paragraph.anchor P = pair'.paragraph.anchor P ∧
      lineless P pair.symbol = lineless P pair'.symbol ∧
      (pair.symbol.startLine = .null ↔ pair'.symbol.startLine = .null) ∧
      (pair.symbol.startLine ≠ .null → pair.symbol.identity P = pair'.symbol.identity P) := by
  simp only [recordKey, freshRecord, buildRecord, posixPath_posixPath, text_or,
    RecordKey.mk.injEq] at h
  obtain ⟨hdoc, hpid, hpath, hname, hlines, htype⟩ := h
  refine ⟨Prod.ext hdoc hpid, ?_, ?_, fun hne => ?_⟩
  · unfold lineless identityOf
    rw [hpath, hname, htype]
  · by_cases h1 : pair.symbol.startLine = .null <;> by_cases h2 : pair'.symbol.startLine = .null
    · exact iff_of_true h1 h2
    · simp [linesKey, h1, h2] at hlines
    · simp [linesKey, h1, h2] at hlines
    · exact iff_of_false h1 h2
  · have hne' : pair'.symbol.startLine ≠ .null := by
      intro h2
      simp [linesKey, hne, h2] at hlines
    simp only [linesKey, hne, hne', if_false, List.cons.injEq, and_true] at hlines
    unfold EngineSymbol.identity identityOf
    simp only [hpath, hname, htype, hlines]

theorem RoundTrips.not_drifted (h : RoundTrips P inp) {r : Record} (hr : r ∈ freshRecords P inp) :
    drifted P inp r = false := by
  obtain ⟨pair, hpair, rfl⟩ := List.mem_map.mp hr
  exact (drifted_fresh hpair).mpr (h.found pair hpair)

/-- Those with one key carry the same hashes. -/
theorem RoundTrips.shas_eq (h : RoundTrips P inp) {r r' : Record} (hr : r ∈ freshRecords P inp)
    (hr' : r' ∈ freshRecords P inp) (hkey : recordKey P r = recordKey P r') : r.shas = r'.shas := by
  obtain ⟨pair, hpair, rfl⟩ := List.mem_map.mp hr
  obtain ⟨pair', hpair', rfl⟩ := List.mem_map.mp hr'
  obtain ⟨hanchor, hlineless, hnull, hid⟩ := recordKey_fresh_lineless hkey
  have hdoc : pair.paragraph.docId = pair'.paragraph.docId := congrArg Prod.fst hanchor
  rw [freshRecord_shas, freshRecord_shas, hdoc]
  by_cases hstart : pair.symbol.startLine = .null
  · rw [h.agree pair hpair pair' hpair' hanchor hlineless hstart (hnull.mp hstart)]
  · rw [hid hstart]

theorem roundTrips_of_lines (h : ∀ pair ∈ scoredPairs P inp,
    pair.symbol.startLine = .null → pair.symbol.endLine = .null) : RoundTrips P inp := by
  have hid : ∀ pair ∈ scoredPairs P inp, pair.symbol.startLine = .null →
      pair.symbol.identity P = lineless P pair.symbol := by
    intro pair hpair hstart
    unfold EngineSymbol.identity lineless
    rw [hstart, h pair hpair hstart]
  refine ⟨fun pair hpair hstart => ⟨⟨pair.symbol, (mem_of_scored hpair).2, ?_⟩, ?_⟩,
    fun pair hpair pair' hpair' _ hlineless hstart hstart' => ?_⟩
  · exact hid pair hpair hstart
  · rw [hid pair hpair hstart, contradicts_self]
  · rw [hid pair hpair hstart, hid pair' hpair' hstart', hlineless]

theorem RoundTrips.unchanged_eq (h : RoundTrips P inp) {r r' : Record}
    (hr : r ∈ freshRecords P inp) (hr' : r' ∈ freshRecords P inp)
    (hkey : recordKey P r = recordKey P r') (log : List Record) :
    unchanged P log r = unchanged P log r' := by
  unfold unchanged
  rw [hkey, h.shas_eq hr hr' hkey]

theorem RoundTrips.lookup_new (h : RoundTrips P inp) (reconcile : Bool) (log : List Record)
    {r : Record} (hr : r ∈ freshRecords P inp) :
    (lookup (recordKey P) (recordKey P r) (latestRecords P ((freshRecords P inp).filter fun r =>
      reconcile || !unchanged P log r))).map Record.shas =
      if reconcile || !unchanged P log r then some r.shas else none := by
  cases hl : lookup (recordKey P) (recordKey P r) (latestRecords P ((freshRecords P inp).filter
      fun r => reconcile || !unchanged P log r)) with
  | none =>
    have hnot := lookup_latest_none.mp hl r
    rw [if_neg]
    · rfl
    · intro hp
      exact hnot (List.mem_filter.mpr ⟨hr, hp⟩) rfl
  | some x =>
    have hx := lookup_key hl
    obtain ⟨hxr, hp⟩ := List.mem_filter.mp (mem_of_mem_latest (lookup_mem hl))
    rw [h.unchanged_eq hxr hr hx] at hp
    rw [if_pos hp, Option.map_some, h.shas_eq hxr hr hx]

theorem lookup_new_none {reconcile : Bool} {log : List Record} {k : RecordKey}
    (h : ∀ r ∈ freshRecords P inp, recordKey P r ≠ k) :
    lookup (recordKey P) k (latestRecords P ((freshRecords P inp).filter fun r =>
      reconcile || !unchanged P log r)) = none :=
  lookup_latest_none.mpr fun r hr => h r (List.mem_of_mem_filter hr)

/-- A record of the build that is not new is the link already held, and is kept. -/
theorem RoundTrips.kept_of_unchanged (h : RoundTrips P inp) {log : List Record} {r : Record}
    (hr : r ∈ freshRecords P inp) (hu : unchanged P log r = true) :
    kept P inp log (recordKey P r) = some r.shas := by
  unfold unchanged at hu
  unfold kept
  cases hl : lookup (recordKey P) (recordKey P r) (latestRecords P log) with
  | none => simp [hl] at hu
  | some x =>
    simp only [hl, Bool.and_eq_true, beq_iff_eq] at hu
    have hd : drifted P inp x = false := by
      rw [drifted_congr (lookup_key hl) hu.2]
      exact h.not_drifted hr
    simp [hu.1, hu.2, hd]

theorem RoundTrips.activeShas_fresh (h : RoundTrips P inp) {reconcile : Bool}
    (hb : buildLinks P inp env reconcile false s = (s', .ok report)) {r : Record}
    (hr : r ∈ freshRecords P inp) : activeShas P s'.log (recordKey P r) = some r.shas := by
  by_cases hsize : reconcile = false ∨ ¬ maxRawLogBytes < (s.log.map env.lineBytes).sum
  · obtain ⟨-, -, -, hnew, -⟩ := buildLinks_ok hb hsize
    rw [activeShas_after hb hsize, hnew, h.lookup_new reconcile s.log hr]
    cases reconcile with
    | true => rfl
    | false =>
      cases hu : unchanged P s.log r with
      | false => rfl
      | true => exact h.kept_of_unchanged hr hu
  · obtain ⟨hrec, hover⟩ := not_or.mp hsize
    obtain rfl : reconcile = true := by simpa using hrec
    have hlookup := h.lookup_new true [] hr
    simp only [Bool.true_or, List.filter_true, if_true] at hlookup
    have hlog := activeShas_written (P := P) (buildLinks_compacts hb (not_not.mp hover)) []
      (recordKey P r)
    rw [List.nil_append] at hlog
    rw [hlog]
    obtain ⟨x, hx, hshas⟩ := Option.map_eq_some_iff.mp hlookup
    rw [hx]
    have hxr : x ∈ freshRecords P inp := mem_of_mem_latest (lookup_mem hx)
    simp [fresh_countsAsActive hxr, hshas]

theorem activeShas_reconciled (hb : buildLinks P inp env true false s = (s', .ok report))
    {k : RecordKey} (hk : ∀ r ∈ freshRecords P inp, recordKey P r ≠ k) :
    activeShas P s'.log k = none := by
  by_cases hover : maxRawLogBytes < (s.log.map env.lineBytes).sum
  · have hlog := activeShas_written (P := P) (buildLinks_compacts hb hover) [] k
    have hnone : lookup (recordKey P) k (latestRecords P (freshRecords P inp)) = none :=
      lookup_latest_none.mpr hk
    rw [List.nil_append, hnone] at hlog
    exact hlog
  · obtain ⟨-, -, -, hnew, -⟩ := buildLinks_ok hb (Or.inr hover)
    rw [activeShas_after hb (Or.inr hover), hnew, lookup_new_none hk]
    rfl

/-! ## Samples -/

/-- The test holds of what a completed build leaves. -/
def leaves (build : Store × Except String BuildReport) (test : Store → BuildReport → Bool) : Bool :=
  match build with
  | (s, .ok report) => test s report
  | (_, .error _) => false

theorem exists_of_leaves {build : Store × Except String BuildReport}
    {test : Store → BuildReport → Bool} (h : leaves build test = true) :
    ∃ s report, build = (s, .ok report) ∧ test s report = true := by
  obtain ⟨s, _ | report⟩ := build
  · cases h
  · exact ⟨s, report, rfl, h⟩

/-- Python on ASCII texts and on numbers that are not floats. -/
def samplePlatform : Platform where
  isWord _ := false
  isUpper _ := false
  isDigit _ := false
  casefold text := String.ofList (text.toList.map Char.toLower)
  nfc text := text
  nfd text := text
  same
    | .bool b => .int (if b then 1 else 0)
    | value => value
  idfScore _ _ _ := 1 / 2
  int
    | .bool b => .ok (if b then 1 else 0)
    | _ => .error "invalid literal for int()"
  resolve text := text

def sampleEnv : Env where
  now := "2026-10-19T02:25:32Z"
  lineBytes _ := 400
  redact text := text

/-- The symbol `a_bcd` of a file. -/
def sampleSymbol (path : String) (startLine : Scalar) : EngineSymbol :=
  { name := "a_bcd", path, startLine, endLine := .int 5 }

/-- One paragraph that names the symbol of these files. -/
def sampleInputs (paths : List String) (startLine : Scalar) : Inputs where
  projectId := "p"
  paragraphs := [{ docId := "d", paragraphId := .int 1, text := "a_bcd" }]
  symbols := paths.map fun path => sampleSymbol path startLine

/-- The build of a sample. -/
def sampleBuild (paths : List String) (startLine : Scalar) (reconcile : Bool) (s : Store) :
    Store × Except String BuildReport :=
  buildLinks samplePlatform (sampleInputs paths startLine) sampleEnv reconcile false s

/-- The files of a name that becomes frequent. -/
def manyPaths : List String := ["x", "1", "2", "3", "4", "5", "6", "7", "8"]

/-- The key of the link to the first file. -/
def sampleKey : RecordKey := ⟨"d", .int 1, "x", "a_bcd", [.int 1, .int 5], "symbol"⟩

theorem sample_runs :
    (leaves (sampleBuild ["x"] (.int 1) false {}) (fun s₁ _ =>
      leaves (sampleBuild manyPaths (.int 1) false s₁) fun s₂ _ =>
        leaves (sampleBuild manyPaths (.int 1) true s₁) fun s₃ _ =>
          activeShas samplePlatform s₂.log sampleKey !=
            activeShas samplePlatform s₃.log sampleKey) &&
    leaves (sampleBuild ["x"] .null false {}) (fun s₁ _ =>
      leaves (sampleBuild ["x"] .null false s₁) fun _ r₂ => !r₂.staledLinks.isEmpty) &&
    ((scoredPairs samplePlatform (sampleInputs manyPaths (.int 1))).all fun pair =>
      pair.symbol.startLine != .null)) = true := by
  decide +kernel

/-! ## Incremental and reconcile -/

/-- **An incremental build leaves what a reconcile build leaves, and the kept links.** -/
theorem incremental_agrees {env' : Env} {s₁ s₂ : Store} {r₁ r₂ : BuildReport}
    (h₁ : buildLinks P inp env false false s = (s₁, .ok r₁))
    (h₂ : buildLinks P inp env' true false s = (s₂, .ok r₂))
    (hlines : ∀ pair ∈ scoredPairs P inp,
      pair.symbol.startLine = .null → pair.symbol.endLine = .null) (k : RecordKey) :
    activeShas P s₁.log k = (activeShas P s₂.log k).or (kept P inp s.log k) := by
  have hrt := roundTrips_of_lines hlines
  by_cases hk : ∃ r ∈ freshRecords P inp, recordKey P r = k
  · obtain ⟨r, hr, rfl⟩ := hk
    rw [hrt.activeShas_fresh h₁ hr, hrt.activeShas_fresh h₂ hr]
    rfl
  · have hk : ∀ r ∈ freshRecords P inp, recordKey P r ≠ k := fun r hr he => hk ⟨r, hr, he⟩
    obtain ⟨-, -, -, hnew, -⟩ := buildLinks_ok h₁ (Or.inl rfl)
    rw [activeShas_after h₁ (Or.inl rfl), hnew, lookup_new_none hk, activeShas_reconciled h₂ hk]
    rfl

/-- The file of the first build is still linked after its name has become too frequent to be. -/
theorem incremental_agrees_sample : ∃ s s₁ r₁ s₂ r₂,
    sampleBuild manyPaths (.int 1) false s = (s₁, .ok r₁) ∧
      sampleBuild manyPaths (.int 1) true s = (s₂, .ok r₂) ∧
      ∀ k, activeShas samplePlatform s₁.log k = (activeShas samplePlatform s₂.log k).or
        (kept samplePlatform (sampleInputs manyPaths (.int 1)) s.log k) := by
  have h := sample_runs
  simp only [Bool.and_eq_true, List.all_eq_true] at h
  obtain ⟨⟨h, -⟩, hstart⟩ := h
  obtain ⟨s, r, -, h⟩ := exists_of_leaves h
  obtain ⟨s₁, r₁, h₁, h⟩ := exists_of_leaves h
  obtain ⟨s₂, r₂, h₂, -⟩ := exists_of_leaves h
  refine ⟨s, s₁, r₁, s₂, r₂, h₁, h₂, incremental_agrees h₁ h₂ fun pair hpair hnull => ?_⟩
  exact absurd hnull (by simpa using hstart pair hpair)

/-- An incremental build need not leave what a reconcile build leaves. -/
theorem incremental_keeps_more : ∃ (P : Platform) (env : Env) (inp inp' : Inputs)
    (s s₁ s₂ : Store) (r r₁ r₂ : BuildReport) (k : RecordKey),
    buildLinks P inp env false false {} = (s, .ok r) ∧
      buildLinks P inp' env false false s = (s₁, .ok r₁) ∧
      buildLinks P inp' env true false s = (s₂, .ok r₂) ∧
      activeShas P s₁.log k ≠ activeShas P s₂.log k := by
  have h := sample_runs
  simp only [Bool.and_eq_true] at h
  obtain ⟨⟨h, -⟩, -⟩ := h
  obtain ⟨s, r, h₀, h⟩ := exists_of_leaves h
  obtain ⟨s₁, r₁, h₁, h⟩ := exists_of_leaves h
  obtain ⟨s₂, r₂, h₂, hne⟩ := exists_of_leaves h
  exact ⟨_, _, _, _, s, s₁, s₂, r, r₁, r₂, sampleKey, h₀, h₁, h₂, by simpa using hne⟩

/-! ## The second build -/

/-- Every record of the log has a status, as validation gives it one. -/
def Store.Written (s : Store) : Prop := ∀ r ∈ s.log, r.status ≠ none

theorem prepared_status {now : String} {records written : List Record}
    (h : prepared now records = .ok written) : ∀ r ∈ written, r.status ≠ none := by
  intro r hr
  have hall := mapM_ok h
  clear h
  induction hall with
  | nil => cases hr
  | cons hab _ ih =>
    rcases List.mem_cons.mp hr with rfl | hr
    · obtain ⟨-, -, -, -, hstatus, -⟩ := validateRecord_ok hab
      rw [hstatus]
      exact Option.some_ne_none _
    · exact ih hr

theorem buildLinks_written (hs : s.Written)
    (h : buildLinks P inp env false false s = (s', .ok report)) : s'.Written := by
  obtain ⟨stale, fresh, -, -, hstale, hfresh, hlog, -⟩ := buildLinks_ok h (Or.inl rfl)
  intro r hr
  rw [hlog] at hr
  rcases List.mem_append.mp hr with hr | hr
  · rcases List.mem_append.mp hr with hr | hr
    · exact hs r hr
    · exact prepared_status hstale r hr
  · exact prepared_status hfresh r hr

theorem unchanged_iff {log : List Record} {r : Record} :
    unchanged P log r = true ↔ activeShas P log (recordKey P r) = some r.shas := by
  unfold unchanged activeShas
  cases lookup (recordKey P) (recordKey P r) (latestRecords P log) with
  | none => simp
  | some x => cases hx : x.isActive <;> simp [hx]

theorem staleCopies_nil_iff {now : String} {predicate : Record → Bool} {log : List Record} :
    staleCopies P now predicate log = [] ↔
      ∀ r ∈ latestRecords P log, r.isActive = true → predicate r = false := by
  unfold staleCopies
  rw [List.map_eq_nil_iff, List.filter_eq_nil_iff]
  simp only [Bool.and_eq_true, not_and, Bool.not_eq_true]

theorem lookup_of_latest {log : List Record} {r : Record} (h : r ∈ latestRecords P log) :
    lookup (recordKey P) (recordKey P r) (latestRecords P log) = some r :=
  lookup_of_mem (keyed_latest log) h

theorem no_drift_iff {log : List Record} :
    (∀ r ∈ latestRecords P log, r.isActive = true → drifted P inp r = false) ↔
      ∀ k, activeShas P log k = kept P inp log k := by
  constructor
  · intro h k
    unfold activeShas kept
    cases hl : lookup (recordKey P) k (latestRecords P log) with
    | none => rfl
    | some r =>
      cases hact : r.isActive with
      | false => simp [hact]
      | true => simp [hact, h r (lookup_mem hl) hact]
  · intro h r hr hact
    have hk := h (recordKey P r)
    unfold activeShas kept at hk
    rw [lookup_of_latest hr] at hk
    cases hd : drifted P inp r with
    | false => rfl
    | true => simp [hact, hd] at hk

theorem not_drifted_of_kept {log : List Record} {r : Record}
    (h : kept P inp log (recordKey P r) = some r.shas) : drifted P inp r = false := by
  unfold kept at h
  obtain ⟨x, hx, hxs⟩ := Option.bind_eq_some_iff.mp h
  split at hxs
  · rename_i hc
    simp only [Bool.and_eq_true, Bool.not_eq_true'] at hc
    rw [← drifted_congr (lookup_key hx) (Option.some.inj hxs)]
    exact hc.2
  · cases hxs

/-- A build with nothing to mark and nothing to add leaves the log alone. -/
theorem buildLinks_quiet (hguard : inp.symbols = [] → s.stateActive.getD 0 = 0)
    (hstale : staleCopies P env.now (drifted P inp) s.log = [])
    (hnew : ∀ r ∈ freshRecords P inp, unchanged P s.log r = true) :
    ∃ s₂ r₂, buildLinks P inp env false false s = (s₂, .ok r₂) ∧ r₂.newLinks = [] ∧
      r₂.staledLinks = [] ∧ s₂.log = s.log := by
  have hnone : (freshRecords P inp).filter (fun r => false || !unchanged P s.log r) = [] := by
    refine List.filter_eq_nil_iff.mpr fun r hr => ?_
    simp [hnew r hr]
  have hcollapse : (!false && !false && inp.symbols.isEmpty &&
      decide (0 < s.stateActive.getD 0)) = false := by
    cases hsym : inp.symbols with
    | nil => simp [hguard hsym]
    | cons a l => rfl
  have hmark : markStale P env.now s (fun r => false || drifted P inp r) = (s, .ok []) := by
    simp only [Bool.false_or, markStale, hstale]
    rfl
  unfold buildLinks
  simp only [hcollapse, Bool.false_eq_true, if_false, Bool.false_and, Bool.or_self, hmark, hnone,
    writeLinks, List.isEmpty_nil, if_true]
  refine ⟨_, _, rfl, rfl, rfl, ?_⟩
  split <;> rfl

theorem stateActive_of_no_symbols (hs : s.Written) (hsym : inp.symbols = [])
    (h : buildLinks P inp env false false s = (s', .ok report)) : s'.stateActive = some 0 := by
  obtain ⟨-, -, hstaled, hnew, -, -, -, hstate⟩ := buildLinks_ok h (Or.inl rfl)
  have hfresh : freshRecords P inp = [] := by
    refine List.eq_nil_iff_forall_not_mem.mpr fun r hr => ?_
    obtain ⟨pair, hpair, -⟩ := List.mem_map.mp hr
    have := (mem_of_scored hpair).2
    rw [hsym] at this
    cases this
  rw [hfresh, List.filter_nil] at hnew
  rw [hstate, hnew, List.append_nil, hstaled]
  congr 1
  refine List.countP_eq_zero.mpr fun r hr hact => ?_
  have hfound := lookup_of_mem (keyed_latest _) hr
  rw [lookup_latest_append] at hfound
  have hcopy := lookup_staleCopies (P := P) env.now (fun r => false || drifted P inp r) s.log
    (recordKey P r)
  unfold latestRecords at hcopy
  rw [hcopy] at hfound
  cases hl : lookup (recordKey P) (recordKey P r) (latest (recordKey P) s.log) with
  | none => simp [hl] at hfound
  | some x =>
    have hdrift : drifted P inp x = true := by simp [drifted, hsym]
    cases hx : x.isActive with
    | true =>
      simp only [hl, Option.filter, hx, hdrift, Bool.or_true, Bool.and_self, if_true,
        Option.map_some, Option.some_or, Option.some.injEq] at hfound
      rw [← hfound] at hact
      simp [countsAsActive, statusStale, statusActive] at hact
    | false =>
      simp only [hl, Option.filter, hx, Bool.false_and, Bool.false_eq_true, if_false,
        Option.map_none, Option.none_or, Option.some.injEq] at hfound
      rw [← hfound] at hact
      have hstatus := hs x (mem_of_mem_latest (lookup_mem hl))
      cases hst : x.status with
      | none => exact hstatus hst
      | some t =>
        simp only [countsAsActive, hst, Option.getD_some] at hact
        simp [Record.isActive, hst, beq_iff_eq.mp hact] at hx

theorem recordKey_fresh_eq {pair pair' : ScoredPair}
    (hanchor : pair.paragraph.anchor P = pair'.paragraph.anchor P)
    (hlineless : lineless P pair.symbol = lineless P pair'.symbol)
    (hstart : pair.symbol.startLine = .null) (hstart' : pair'.symbol.startLine = .null) :
    recordKey P (freshRecord P inp pair) = recordKey P (freshRecord P inp pair') := by
  obtain ⟨hdoc, hpid⟩ := Prod.mk.injEq .. ▸ hanchor
  simp only [lineless, identityOf, Prod.mk.injEq, true_and] at hlineless
  obtain ⟨hpath, hname, htype⟩ := hlineless
  simp only [recordKey, freshRecord, buildRecord, posixPath_posixPath, text_or, hstart, hstart',
    if_true, linesKey, RecordKey.mk.injEq, true_and]
  exact ⟨hdoc, hpid, hpath, hname, htype⟩

/-- **The second of two builds on the same inputs does nothing exactly when the records of the
build round trip**, whatever the store held before. -/
theorem second_build_quiet_iff {env' : Env} {s₁ : Store} {r₁ : BuildReport} (hs : s.Written)
    (h₁ : buildLinks P inp env false false s = (s₁, .ok r₁)) :
    (∃ s₂ r₂, buildLinks P inp env' false false s₁ = (s₂, .ok r₂) ∧ r₂.newLinks = [] ∧
      r₂.staledLinks = [] ∧ s₂.log = s₁.log ∧ ∀ k, activeShas P s₂.log k = activeShas P s₁.log k) ↔
      RoundTrips P inp := by
  constructor
  · rintro ⟨s₂, r₂, h₂, hnew, hstaled, -, -⟩
    obtain ⟨-, -, hcopies, hfilter, -⟩ := buildLinks_ok h₂ (Or.inl rfl)
    rw [hstaled] at hcopies
    rw [hnew] at hfilter
    have hkept := no_drift_iff.mp (staleCopies_nil_iff.mp hcopies.symm)
    have hheld : ∀ pair ∈ scoredPairs P inp, activeShas P s₁.log
        (recordKey P (freshRecord P inp pair)) = some (freshRecord P inp pair).shas := by
      intro pair hpair
      have := List.filter_eq_nil_iff.mp hfilter.symm _ (List.mem_map_of_mem hpair)
      exact unchanged_iff.mp (by simpa using this)
    refine ⟨fun pair hpair => (drifted_fresh hpair).mp ?_,
      fun pair hpair pair' hpair' hanchor hlineless hstart hstart' => ?_⟩
    · have := hheld pair hpair
      rw [hkept] at this
      exact not_drifted_of_kept this
    · have hkey := @recordKey_fresh_eq P inp _ _ hanchor hlineless hstart hstart'
      have hp := hheld pair hpair
      rw [hkey, hheld pair' hpair'] at hp
      exact (congrArg Prod.snd (Option.some.inj hp)).symm
  · intro hrt
    have hnew : ∀ r ∈ freshRecords P inp, unchanged P s₁.log r = true := fun r hr =>
      unchanged_iff.mpr (hrt.activeShas_fresh h₁ hr)
    have hstale : staleCopies P env'.now (drifted P inp) s₁.log = [] := by
      refine staleCopies_nil_iff.mpr fun r hr hact => ?_
      have hheld : activeShas P s₁.log (recordKey P r) = some r.shas := by
        unfold activeShas
        rw [lookup_of_latest hr]
        simp [hact]
      obtain ⟨-, -, -, hfilter, -⟩ := buildLinks_ok h₁ (Or.inl rfl)
      rw [activeShas_after h₁ (Or.inl rfl), hfilter] at hheld
      rcases Option.or_eq_some_iff.mp hheld with hx | ⟨-, hk⟩
      · obtain ⟨x, hx, hshas⟩ := Option.map_eq_some_iff.mp hx
        have hxr := List.mem_of_mem_filter (mem_of_mem_latest (lookup_mem hx))
        rw [← drifted_congr (lookup_key hx) hshas]
        exact hrt.not_drifted hxr
      · exact not_drifted_of_kept hk
    obtain ⟨s₂, r₂, hb, hn, hst, hlog⟩ := @buildLinks_quiet P inp env' s₁
      (fun hsym => by rw [stateActive_of_no_symbols hs hsym h₁]; rfl) hstale hnew
    exact ⟨s₂, r₂, hb, hn, hst, hlog, fun k => by rw [hlog]⟩

/-- A symbol with both lines. -/
theorem second_build_quiet_sample : ∃ s₁ r₁,
    sampleBuild ["x"] (.int 1) false {} = (s₁, .ok r₁) ∧
      ((∃ s₂ r₂, sampleBuild ["x"] (.int 1) false s₁ = (s₂, .ok r₂) ∧ r₂.newLinks = [] ∧
        r₂.staledLinks = [] ∧ s₂.log = s₁.log ∧
        ∀ k, activeShas samplePlatform s₂.log k = activeShas samplePlatform s₁.log k) ↔
      RoundTrips samplePlatform (sampleInputs ["x"] (.int 1))) := by
  have h := sample_runs
  simp only [Bool.and_eq_true] at h
  obtain ⟨⟨h, -⟩, -⟩ := h
  obtain ⟨s₁, r₁, h₁, -⟩ := exists_of_leaves h
  exact ⟨s₁, r₁, h₁, second_build_quiet_iff (fun r hr => by cases hr) h₁⟩

/-- A symbol with an end line only: the second build marks its link stale. -/
theorem second_build_stales : ∃ (P : Platform) (env : Env) (inp : Inputs) (s₁ s₂ : Store)
    (r₁ r₂ : BuildReport), buildLinks P inp env false false {} = (s₁, .ok r₁) ∧
      buildLinks P inp env false false s₁ = (s₂, .ok r₂) ∧ r₂.staledLinks ≠ [] := by
  have h := sample_runs
  simp only [Bool.and_eq_true] at h
  obtain ⟨⟨-, h⟩, -⟩ := h
  obtain ⟨s₁, r₁, h₁, h⟩ := exists_of_leaves h
  obtain ⟨s₂, r₂, h₂, hne⟩ := exists_of_leaves h
  exact ⟨_, _, _, s₁, s₂, r₁, r₂, h₁, h₂, by simpa using hne⟩

end CortexHarness.Link
