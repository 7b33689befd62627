import CortexHarness.Library.Fallible
import CortexHarness.Library.Run
import CortexHarness.Link.Rebuild

/-!
# The tables as a view of the log

`links.db` is meant to hold the latest records of `links.jsonl`. A run is a list of writer calls,
each of which may be interrupted after its log write: the process is killed, or SQLite raises.

* `viewRows` are the records the tables serve, and `InSync` says that they are the latest records
  of the log, one to one, with the same key, status, score, provenance and hashes;
* `owing` keeps, along a run, the keys that an interrupted write owes to the tables: a completed
  write pays the keys of its records, a completed compaction pays all;
* `Serves` says which records the tables are the images of;
* `Storable` and `KeysAgree` say which records the tables can hold: lines that are the numbers
  `int` makes of them, a status, and text keys that tell records apart as `record_key` does.

Results:
* `serves_upsert`: an upsert assigns the appended records to the served ones;
* `followed_step`: where no key is owed, the tables serve what the log says;
* **`view_refines_log`**: in every run the tables are in sync wherever no key is owed;
* **`build_after_crash`**: a build that completes after an interrupted append need not bring them
  back in sync.
-/

namespace CortexHarness.Link

open Fallible Run Table

variable (P : Platform)

/-! ## What the tables serve -/

/-- A line number as a value. -/
def lineValue (line : Option Int) : Scalar :=
  match line with
  | some n => .int n
  | none => .null

/-- `_row_to_record` on the joined row. -/
def rowToRecord (d : DocRow) (p : ParaRow) (q : SymRow) (l : LinkRow) : Record where
  projectId := l.projectId
  relation := l.relation
  doc := { docId := d.docId, paragraphId := p.paragraphId, sourceSha := l.docSha }
  code := {
    targetType := q.targetType
    parserType := q.parserType
    path := q.path
    name := q.name
    lines := q.startLine.map fun a => (.int a, lineValue q.endLine)
    sourceSha := l.codeSha }
  score := l.score
  provenance := l.provenance
  status := some l.status
  createdAt := some l.createdAt
  staledAt := l.staledAt

/-- One row of the join. -/
def joinRow (db : Db) (l : LinkRow) : Option Record := do
  let d ← lookup (·.docId) l.docId db.docs
  let p ← lookup (·.paraKey) l.paraKey db.paragraphs
  let q ← lookup (·.symKey) l.symKey db.symbols
  return rowToRecord d p q l

/-- The records of the tables, in the order of the link rows. -/
def viewRows (db : Db) : List Record := db.links.filterMap (joinRow db)

/-- What a reader compares of a record. -/
structure LinkView where
  key : RecordKey
  status : Option String
  score : Rat
  provenance : String
  shas : Option String × Option String
  deriving DecidableEq

def Record.view (r : Record) : LinkView :=
  { key := recordKey P r, status := r.status, score := r.score, provenance := r.provenance,
    shas := r.shas }

/-- **The tables hold the latest records of the log.** -/
def InSync (s : Store) : Prop :=
  ((viewRows (s.db.getD {})).map (·.view P)).Perm ((latestRecords P s.log).map (·.view P))

/-- `latest_links`: the tables if they exist and are not older than the log, else the log. -/
def latestLinks (dbIsNewer : Bool) (s : Store) : List Record :=
  match s.db with
  | some db => if dbIsNewer then viewRows db else latestRecords P s.log
  | none => latestRecords P s.log

/-! ## Runs of writer calls -/

/-- A call of a writer. -/
inductive Call where
  | append (records : List Record) (snippets : Snippets)
  | markStale (predicate : Record → Bool)
  | compact (records : List Record) (snippets : Snippets)
  | saveSnippets (snippets : Snippets)

/-- The records a caller hands over. -/
def Call.records : Call → List Record
  | .append records _ => records
  | .compact records _ => records
  | .markStale _ => []
  | .saveSnippets _ => []

/-- A call at a time, cut off after its log write or not. -/
structure Event where
  call : Call
  now : String
  interrupted : Bool := false

/-- A call that returns, or raises by itself. -/
def perform (now : String) (s : Store) : Call → Store
  | .append records snippets => (appendLinks P now s records snippets).1
  | .markStale predicate => (markStale P now s predicate).1
  | .compact records snippets => (compactStoreOnReconcile P now s records snippets).1
  | .saveSnippets snippets => saveParagraphSnippets s snippets

/-- What is written of the records handed over: nothing if one is refused. -/
def validated (now : String) (records : List Record) : List Record :=
  (prepared now records).toOption.getD []

/-- A call that is cut off after its log write. -/
def cutOff (now : String) (s : Store) : Call → Store
  | .append records _ => { s with log := s.log ++ validated now records }
  | .markStale predicate =>
    { s with log := s.log ++ validated now (staleCopies P now predicate s.log) }
  | .compact records _ =>
    match prepared now records with
    | .ok written => { s with log := written }
    | .error _ => s
  | .saveSnippets _ => s

def step (s : Store) (e : Event) : Store :=
  if e.interrupted then cutOff P e.now s e.call else perform P e.now s e.call

/-- What a call writes to the log. -/
def writes (s : Store) (e : Event) : List Record :=
  match e.call with
  | .append records _ => validated e.now records
  | .markStale predicate => validated e.now (staleCopies P e.now predicate s.log)
  | .compact records _ => validated e.now records
  | .saveSnippets _ => []

/-- The keys at which the tables may differ from the log after a call, of those before it. -/
def owing (s : Store) (owed : List RecordKey) (e : Event) : List RecordKey :=
  let keys := (writes P s e).map (recordKey P)
  match e.call with
  | .compact records _ =>
    if (prepared e.now records).toOption.isNone then owed
    else if e.interrupted then owed ++ s.log.map (recordKey P) ++ keys
    else []
  | _ => if e.interrupted then owed ++ keys else owed.filter fun k => !keys.contains k

/-- A call, with the keys that are owed. -/
def trackedStep (w : Store × List RecordKey) (e : Event) : Store × List RecordKey :=
  (step P w.1 e, owing P w.1 w.2 e)

/-! ## Records the tables can hold -/

/-- The number of a line in the tables. -/
def lineOf (value : Scalar) : Option Int := (lineNumber P value).toOption.getD none

/-- A line, or none, that `int` accepts and does not change. -/
def IsLine (value : Scalar) : Prop :=
  lineNumber P value = .ok (lineOf P value) ∧ P.same (lineValue (lineOf P value)) = P.same value

/-- The lines are numbers and start with one, and the status is not the empty text. -/
structure Storable (r : Record) : Prop where
  lines : ∀ a b, r.code.lines = some (a, b) →
    IsLine P a ∧ IsLine P b ∧ (lineOf P a).isSome = true
  status : r.status ≠ some ""

/-- The symbol's row of a storable record. -/
def symRow (code : CodeRef) : SymRow :=
  let lines := (code.lines.bind fun l => lineOf P l.1, code.lines.bind fun l => lineOf P l.2)
  let path := posixPath code.path
  let targetType := textOr code.targetType "symbol"
  { symKey := symKeyOf path code.name lines targetType
    path := path
    name := code.name
    targetType := targetType
    parserType := code.parserType
    startLine := lines.1
    endLine := lines.2
    sourceSha := code.sourceSha }

/-- The code part of `record_key`. -/
def codeKey (code : CodeRef) : String × String × List Scalar × String :=
  (posixPath code.path, code.name, linesKey P code.lines, textOr code.targetType "symbol")

/-- **The text keys of the tables tell the records apart as `record_key` does.** -/
def KeysAgree (records : List Record) : Prop :=
  ∀ a ∈ records, ∀ b ∈ records,
    (paraKey a.doc = paraKey b.doc ↔ a.anchor P = b.anchor P) ∧
    ((symRow P a.code).symKey = (symRow P b.code).symKey ↔ codeKey P a.code = codeKey P b.code)

/-- The image of a record among the link rows. -/
def linkRow (r : Record) : LinkRow := linkRowOf r (symRow P r.code).symKey

/-! ## The rows of storable records -/

variable {P} {r r' : Record}

theorem symRowOf_ok (h : Storable P r) : symRowOf P r.code = .ok (symRow P r.code) := by
  unfold symRowOf symRow lineNumbers
  cases hl : r.code.lines with
  | none => rfl
  | some l =>
    obtain ⟨a, b⟩ := l
    obtain ⟨ha, hb, -⟩ := h.lines a b hl
    simp only [ha.1, hb.1]
    rfl

/-- Validation and stale copies change neither the document nor the place in the code. -/
structure SameRefs (a b : Record) : Prop where
  doc : a.doc = b.doc
  code : { a.code with path := posixPath a.code.path } =
    { b.code with path := posixPath b.code.path }

theorem SameRefs.refl (a : Record) : SameRefs a a := ⟨rfl, rfl⟩

theorem SameRefs.trans {a b c : Record} (h : SameRefs a b) (h' : SameRefs b c) : SameRefs a c :=
  ⟨h.doc.trans h'.doc, h.code.trans h'.code⟩

theorem sameRefs_validated {now : String} (h : validateRecord now r = .ok r') : SameRefs r' r := by
  obtain ⟨hdoc, hcode, -⟩ := validateRecord_ok h
  refine ⟨hdoc, ?_⟩
  rw [hcode]
  simp only [posixPath_posixPath]

theorem SameRefs.symRow {a b : Record} (h : SameRefs a b) :
    Link.symRow P a.code = Link.symRow P b.code := by
  have hc := CodeRef.mk.injEq .. ▸ h.code
  obtain ⟨htype, hparser, hpath, hname, hlines, hsha⟩ := hc
  unfold Link.symRow
  rw [htype, hparser, hpath, hname, hlines, hsha]

theorem SameRefs.codeKey {a b : Record} (h : SameRefs a b) :
    Link.codeKey P a.code = Link.codeKey P b.code := by
  obtain ⟨htype, -, hpath, hname, hlines, -⟩ := CodeRef.mk.injEq .. ▸ h.code
  unfold Link.codeKey
  rw [htype, hpath, hname, hlines]

theorem SameRefs.anchor {a b : Record} (h : SameRefs a b) : a.anchor P = b.anchor P := by
  unfold Record.anchor
  rw [h.doc]

theorem recordKey_eq_iff : recordKey P r = recordKey P r' ↔
    r.anchor P = r'.anchor P ∧ codeKey P r.code = codeKey P r'.code := by
  unfold recordKey Record.anchor codeKey
  simp only [RecordKey.mk.injEq, Prod.mk.injEq]
  exact ⟨fun ⟨ha, hb, hc⟩ => ⟨⟨ha, hb⟩, hc⟩, fun ⟨⟨ha, hb⟩, hc⟩ => ⟨ha, hb, hc⟩⟩

theorem codeKey_symRow (h : Storable P r) :
    (posixPath (symRow P r.code).path, (symRow P r.code).name,
      linesKey P ((symRow P r.code).startLine.map fun a =>
        (.int a, lineValue (symRow P r.code).endLine)),
      textOr (symRow P r.code).targetType "symbol") = codeKey P r.code := by
  have htext : textOr (textOr r.code.targetType "symbol") "symbol" =
      textOr r.code.targetType "symbol" := by
    unfold textOr
    split <;> simp_all
  have hlines : linesKey P ((r.code.lines.bind fun l => lineOf P l.1).map fun a =>
      (.int a, lineValue (r.code.lines.bind fun l => lineOf P l.2))) =
        linesKey P r.code.lines := by
    cases hl : r.code.lines with
    | none => rfl
    | some l =>
      obtain ⟨a, b⟩ := l
      obtain ⟨ha, hb, hsome⟩ := h.lines a b hl
      obtain ⟨n, hn⟩ := Option.isSome_iff_exists.mp hsome
      have ha := ha.2
      rw [hn] at ha
      simp only [Option.bind_some, hn, Option.map_some, linesKey]
      rw [hb.2]
      exact congrArg (fun x => [x, P.same b]) ha
  simp only [symRow, codeKey, posixPath_posixPath, htext, hlines]

/-! ## What the tables are the images of -/

/-- A record of the log: the references of a record handed over, and what validation gives it. -/
structure Logged (P : Platform) (known : List Record) (r : Record) : Prop where
  known : ∃ b ∈ known, SameRefs r b
  storable : Storable P r
  status : r.status ≠ none

/-- **The tables serve the records `shown`.** The link rows are their images, each has its other
rows, and the paragraphs and symbols are those of records of the log. -/
structure Serves (P : Platform) (known shown : List Record) (db : Db) : Prop where
  keyed : Keyed (recordKey P) shown
  logged : ∀ r ∈ shown, Logged P known r
  links : db.links = shown.map (linkRow P)
  docs : ∀ r ∈ shown, ∃ d ∈ db.docs, d.docId = r.doc.docId
  paragraphs : ∀ r ∈ shown, ∃ p ∈ db.paragraphs, p.paraKey = paraKey r.doc
  paragraphsFrom : ∀ p ∈ db.paragraphs, ∃ r, Logged P known r ∧ p.paraKey = paraKey r.doc ∧
    p.docId = r.doc.docId ∧ p.paragraphId = r.doc.paragraphId
  symbols : ∀ r ∈ shown, ∃ q ∈ db.symbols, q.symKey = (symRow P r.code).symKey
  symbolsFrom : ∀ q ∈ db.symbols, ∃ r, Logged P known r ∧
    q.symKey = (symRow P r.code).symKey ∧ q.path = (symRow P r.code).path ∧
    q.name = (symRow P r.code).name ∧ q.targetType = (symRow P r.code).targetType ∧
    q.startLine = (symRow P r.code).startLine ∧ q.endLine = (symRow P r.code).endLine

variable {known log shown : List Record}

theorem serves_nil : Serves P known [] {} where
  keyed := List.nodup_nil
  logged := by simp
  links := rfl
  docs := by simp
  paragraphs := by simp
  paragraphsFrom := by simp
  symbols := by simp
  symbolsFrom := by simp

/-- Two records of the log are told apart by the text keys as by `record_key`. -/
theorem KeysAgree.logged (hk : KeysAgree P known) (h : Logged P known r)
    (h' : Logged P known r') :
    (paraKey r.doc = paraKey r'.doc ↔ r.anchor P = r'.anchor P) ∧
      ((symRow P r.code).symKey = (symRow P r'.code).symKey ↔
        codeKey P r.code = codeKey P r'.code) := by
  obtain ⟨b, hb, hrb⟩ := h.known
  obtain ⟨b', hb', hrb'⟩ := h'.known
  have hagree := hk b hb b' hb'
  rw [hrb.doc, hrb'.doc, hrb.anchor, hrb'.anchor, hrb.symRow, hrb'.symRow, hrb.codeKey,
    hrb'.codeKey]
  exact hagree

theorem exists_lookup {α κ : Type} [DecidableEq κ] {key : α → κ} {k : κ} {t : List α}
    (h : ∃ x ∈ t, key x = k) : ∃ x, lookup key k t = some x := by
  cases hl : lookup key k t with
  | some x => exact ⟨x, rfl⟩
  | none =>
    obtain ⟨x, hx, he⟩ := h
    exact absurd he (lookup_eq_none.mp hl x hx)

theorem Serves.joined {db : Db} (h : Serves P known shown db) (hk : KeysAgree P known)
    (hr : r ∈ shown) : ∃ v, joinRow db (linkRow P r) = some v ∧ v.view P = r.view P := by
  have hlog := h.logged r hr
  obtain ⟨d, hd⟩ := exists_lookup (h.docs r hr)
  obtain ⟨p, hp⟩ := exists_lookup (h.paragraphs r hr)
  obtain ⟨q, hq⟩ := exists_lookup (h.symbols r hr)
  refine ⟨rowToRecord d p q (linkRow P r), ?_, ?_⟩
  · unfold joinRow
    simp only [linkRow, linkRowOf, hd, hp, hq]
    rfl
  · -- The rows found may come from other records; those share the keys of `r`.
    obtain ⟨b, hb, hpb, -, hpid⟩ := h.paragraphsFrom p (lookup_mem hp)
    obtain ⟨c, hc, hqc, hpath, hname, htype, hstart, hend⟩ := h.symbolsFrom q (lookup_mem hq)
    have hanchor := ((hk.logged hlog hb).1).mp ((lookup_key hp).symm.trans hpb)
    have hcode := ((hk.logged hlog hc).2).mp ((lookup_key hq).symm.trans hqc)
    have hkey : recordKey P (rowToRecord d p q (linkRow P r)) = recordKey P r := by
      refine recordKey_eq_iff.mpr ⟨?_, ?_⟩
      · refine Prod.ext (show d.docId = r.doc.docId from lookup_key hd) ?_
        show P.same p.paragraphId = _
        rw [hpid]
        exact (congrArg Prod.snd hanchor).symm
      · rw [hcode, ← codeKey_symRow hc.storable, ← hpath, ← hname, ← htype, ← hstart, ← hend]
        rfl
    obtain ⟨t, ht⟩ := Option.ne_none_iff_exists'.mp hlog.status
    have hne : t ≠ "" := fun he => hlog.storable.status (he ▸ ht)
    have hstatus : (rowToRecord d p q (linkRow P r)).status = r.status := by
      show some (textOr (r.status.getD "") statusActive) = r.status
      rw [ht, Option.getD_some, textOr, if_neg hne]
    unfold Record.view
    rw [hkey, hstatus]
    rfl

/-- **Tables that serve records show them.** -/
theorem Serves.shows {db : Db} (h : Serves P known shown db) (hk : KeysAgree P known) :
    (viewRows db).map (·.view P) = shown.map (·.view P) := by
  have hall : ∀ rows : List Record, (∀ r ∈ rows, r ∈ shown) →
      ((rows.map (linkRow P)).filterMap (joinRow db)).map (·.view P) =
        rows.map (·.view P) := by
    intro rows
    induction rows with
    | nil => exact fun _ => rfl
    | cons r rows ih =>
      intro hmem
      obtain ⟨v, hv, hview⟩ := h.joined hk (hmem r List.mem_cons_self)
      rw [List.map_cons, List.filterMap_cons_some hv, List.map_cons, List.map_cons, hview,
        ih fun x hx => hmem x (List.mem_cons_of_mem _ hx)]
  unfold viewRows
  rw [h.links]
  exact hall _ fun r hr => hr

/-! ## One upsert -/

section Collect

variable {α : Type} (key : α → String) (brings : α → Bool)

theorem mem_collect (rows acc : List α) :
    ∀ x ∈ rows.foldl (collect key brings) acc, x ∈ acc ∨ x ∈ rows := by
  induction rows generalizing acc with
  | nil => exact fun x hx => Or.inl hx
  | cons r rows ih =>
    intro x hx
    rcases ih _ x hx with hx | hx
    · unfold collect at hx
      split at hx
      · exact Or.inl hx
      · rcases mem_assign hx with rfl | hx
        · exact Or.inr List.mem_cons_self
        · exact Or.inl hx
    · exact Or.inr (List.mem_cons_of_mem _ hx)

theorem exists_collect (rows acc : List α) :
    ∀ y, y ∈ acc ∨ y ∈ rows → ∃ x ∈ rows.foldl (collect key brings) acc, key x = key y := by
  induction rows generalizing acc with
  | nil => exact fun y hy => ⟨y, hy.resolve_right List.not_mem_nil, rfl⟩
  | cons r rows ih =>
    intro y hy
    have hnext : (∃ z ∈ collect key brings acc r, key z = key y) ∨ y ∈ rows := by
      unfold collect
      split
      · rename_i hc
        rcases hy with hy | hy
        · exact Or.inl ⟨y, hy, rfl⟩
        · rcases List.mem_cons.mp hy with rfl | hy
          · obtain ⟨z, hz, hk⟩ := List.any_eq_true.mp (Bool.and_eq_true_iff.mp hc).1
            exact Or.inl ⟨z, hz, of_decide_eq_true hk⟩
          · exact Or.inr hy
      · rcases hy with hy | hy
        · exact Or.inl (exists_assign r acc (Or.inr ⟨y, hy, rfl⟩))
        · rcases List.mem_cons.mp hy with rfl | hy
          · exact Or.inl (exists_assign y acc (Or.inl rfl))
          · exact Or.inr hy
    rcases hnext with ⟨z, hz, hk⟩ | hy
    · obtain ⟨x, hx, he⟩ := ih _ z (Or.inl hz)
      exact ⟨x, hx, he.trans hk⟩
    · exact ih _ y (Or.inr hy)

variable {key brings} {merge : α → α → α}

theorem exists_stored (hm : ∀ r x, key (merge r x) = key x) {rows t : List α} {y : α} (hy : y ∈ t ∨ y ∈ rows) : ∃ x ∈ stored key brings merge rows t, key x = key y := by
  have hbase : ∃ z, (z ∈ t ∨ z ∈ rows.foldl (collect key brings) []) ∧ key z = key y := by
    rcases hy with hy | hy
    · exact ⟨y, Or.inl hy, rfl⟩
    · obtain ⟨z, hz, he⟩ := exists_collect key brings rows [] y (Or.inr hy)
      exact ⟨z, Or.inr hz, he⟩
  obtain ⟨z, hz, he⟩ := hbase
  obtain ⟨x, hx, hxe⟩ := foldl_upsert_keys (fun r x hk => (hm r x).trans hk) _ t z hz
  exact ⟨x, hx, hxe.trans he⟩

theorem stored_columns {γ : Type} {c : α → γ} (hc : ∀ r x, c (merge r x) = c x) {rows t : List α} {x : α} (hx : x ∈ stored key brings merge rows t) :
    ∃ y, (y ∈ t ∨ y ∈ rows) ∧ c x = c y := by
  obtain ⟨y, hy, he⟩ := foldl_upsert_columns (fun r x _ => hc r x) _ t x hx
  refine ⟨y, hy.imp_right fun hy => ?_, he⟩
  exact (mem_collect key brings rows [] y hy).resolve_left List.not_mem_nil

end Collect

theorem mergeDoc_docId (r x : DocRow) : (mergeDoc r x).docId = x.docId := rfl

theorem mergePara_paraKey (r x : ParaRow) : (mergePara r x).paraKey = x.paraKey := rfl

/-- What a merge leaves of a paragraph's row. -/
def ParaRow.fixed (x : ParaRow) : String × String × Scalar := (x.paraKey, x.docId, x.paragraphId)

theorem mergePara_fixed (r x : ParaRow) : (mergePara r x).fixed = x.fixed := rfl

theorem mergeSym_symKey (r x : SymRow) : (mergeSym r x).symKey = x.symKey := rfl

/-- What a merge leaves of a symbol's row. -/
def SymRow.fixed (x : SymRow) : String × String × String × String × Option Int × Option Int :=
  (x.symKey, x.path, x.name, x.targetType, x.startLine, x.endLine)

theorem mergeSym_fixed (r x : SymRow) : (mergeSym r x).fixed = x.fixed := rfl

/-- **An upsert assigns the records to the served ones.** -/
theorem serves_upsert {db : Db} {written : List Record} (snippets : Snippets)
    (h : Serves P known shown db) (hk : KeysAgree P known)
    (hw : ∀ r ∈ written, Logged P known r) :
    ∃ db', upsertRecords P db written snippets false = .ok db' ∧
      Serves P known (written.foldl (fun t r => assign (recordKey P) r t) shown) db' := by
  have hrows : written.mapM (fun r => symRowOf P r.code) =
      .ok (written.map fun r => symRow P r.code) :=
    mapM_eq_map fun r hr => symRowOf_ok (hw r hr).storable
  have hmem : ∀ r ∈ written.foldl (fun t r => assign (recordKey P) r t) shown,
      r ∈ shown ∨ r ∈ written := fun r hr => mem_foldl_assign hr
  have hall : ∀ r ∈ shown ++ written, Logged P known r := fun r hr =>
    (List.mem_append.mp hr).elim (h.logged r) (hw r)
  have hzip : List.zipWith (fun r (q : SymRow) => linkRowOf r q.symKey) written
      (written.map fun r => symRow P r.code) = written.map (linkRow P) := by
    rw [List.zipWith_map_right, List.zipWith_self]
    rfl
  unfold upsertRecords
  simp only [Bool.false_eq_true, if_false, hrows, bind, Except.bind, pure, Except.pure, hzip]
  refine ⟨_, rfl, h.keyed.foldl_assign written, fun r hr => (hmem r hr).elim (h.logged r) (hw r),
    ?_, ?_, ?_, ?_, ?_, ?_⟩
  · -- The link rows: the text keys tell the records apart as the record keys do.
    rw [h.links]
    refine foldl_upsert_map written (fun x hx r hr => ?_) fun x hx r hr hkey => ?_
    · have hagree := hk.logged (hall x hx) (hw r hr)
      show (paraKey x.doc, (symRow P x.code).symKey) = (paraKey r.doc, (symRow P r.code).symKey) ↔ _
      rw [Prod.mk.injEq, hagree.1, hagree.2]
      exact recordKey_eq_iff.symm
    · have hdoc : x.doc.docId = r.doc.docId :=
        congrArg Prod.fst (recordKey_eq_iff.mp hkey).1
      show { linkRow P r with docId := x.doc.docId } = linkRow P r
      rw [hdoc]
      rfl
  · intro r hr
    rcases hmem r hr with hr | hr
    · obtain ⟨d, hd, he⟩ := h.docs r hr
      obtain ⟨x, hx, hxe⟩ := exists_stored mergeDoc_docId (Or.inl hd)
      exact ⟨x, hx, hxe.trans he⟩
    · exact exists_stored mergeDoc_docId (Or.inr (List.mem_map_of_mem hr))
  · intro r hr
    rcases hmem r hr with hr | hr
    · obtain ⟨p, hp, he⟩ := h.paragraphs r hr
      obtain ⟨x, hx, hxe⟩ := exists_stored mergePara_paraKey (Or.inl hp)
      exact ⟨x, hx, hxe.trans he⟩
    · exact exists_stored mergePara_paraKey (Or.inr (List.mem_map_of_mem hr))
  · intro p hp
    obtain ⟨y, hy, he⟩ := stored_columns mergePara_fixed hp
    simp only [ParaRow.fixed, Prod.mk.injEq] at he
    obtain ⟨hkey, hdoc, hpid⟩ := he
    rw [hkey, hdoc, hpid]
    rcases hy with hy | hy
    · exact h.paragraphsFrom y hy
    · obtain ⟨r, hr, rfl⟩ := List.mem_map.mp hy
      exact ⟨r, hw r hr, rfl, rfl, rfl⟩
  · intro r hr
    rcases hmem r hr with hr | hr
    · obtain ⟨q, hq, he⟩ := h.symbols r hr
      obtain ⟨x, hx, hxe⟩ := exists_stored mergeSym_symKey (Or.inl hq)
      exact ⟨x, hx, hxe.trans he⟩
    · exact exists_stored mergeSym_symKey (Or.inr (List.mem_map_of_mem hr))
  · intro q hq
    obtain ⟨y, hy, he⟩ := stored_columns mergeSym_fixed hq
    simp only [SymRow.fixed, Prod.mk.injEq] at he
    obtain ⟨hkey, hpath, hname, htype, hstart, hend⟩ := he
    rw [hkey, hpath, hname, htype, hstart, hend]
    rcases hy with hy | hy
    · exact h.symbolsFrom y hy
    · obtain ⟨r, hr, rfl⟩ := List.mem_map.mp hy
      exact ⟨r, hw r hr, rfl, rfl, rfl, rfl, rfl, rfl⟩

theorem map_fixed_updateWhere {t : String × String} (rows : List ParaRow) :
    (updateWhere (fun x => decide (x.paraKey = t.1)) (fun x => { x with snippet := some t.2 })
      rows).map ParaRow.fixed = rows.map ParaRow.fixed := by
  rw [updateWhere, List.map_map]
  refine List.map_congr_left fun x _ => ?_
  simp only [Function.comp_apply]
  split <;> rfl

theorem serves_snippets {s : Store} (snippets : Snippets)
    (h : Serves P known shown (s.db.getD {})) :
    Serves P known shown ((saveParagraphSnippets s snippets).db.getD {}) := by
  unfold saveParagraphSnippets
  cases hdb : s.db with
  | none =>
    rw [hdb] at h
    exact h
  | some db =>
    rw [hdb] at h
    simp only [Option.map_some, Option.getD_some] at h ⊢
    generalize (snippets.filter (·.2 != "")).map _ = texts
    have hfixed : ∀ rows : List ParaRow, (texts.foldl (fun rows t =>
        updateWhere (fun x => decide (x.paraKey = t.1)) (fun x => { x with snippet := some t.2 })
          rows) rows).map ParaRow.fixed = rows.map ParaRow.fixed := by
      induction texts with
      | nil => exact fun _ => rfl
      | cons t texts ih => exact fun rows => (ih _).trans (map_fixed_updateWhere rows)
    refine { h with paragraphs := fun r hr => ?_, paragraphsFrom := fun p hp => ?_ }
    · obtain ⟨p, hp, he⟩ := h.paragraphs r hr
      obtain ⟨x, hx, hxp⟩ := List.mem_map.mp
        ((hfixed db.paragraphs).symm ▸ List.mem_map_of_mem (f := ParaRow.fixed) hp)
      exact ⟨x, hx, (congrArg Prod.fst hxp).trans he⟩
    · obtain ⟨x, hx, hxp⟩ := List.mem_map.mp
        (hfixed db.paragraphs ▸ List.mem_map_of_mem (f := ParaRow.fixed) hp)
      simp only [ParaRow.fixed, Prod.mk.injEq] at hxp
      obtain ⟨hkey, hdoc, hpid⟩ := hxp
      rw [← hkey, ← hdoc, ← hpid]
      exact h.paragraphsFrom x hx

/-! ## One call -/

variable {s : Store} {now : String}

theorem logged_validated {b : Record} (hknown : ∃ x ∈ known, SameRefs b x) (hb : Storable P b)
    (h : validateRecord now b = .ok r) : Logged P known r := by
  obtain ⟨x, hx, hbx⟩ := hknown
  obtain ⟨-, hcode, -, -, hstatus, -⟩ := validateRecord_ok h
  refine ⟨⟨x, hx, (sameRefs_validated h).trans hbx⟩, ⟨?_, ?_⟩, ?_⟩
  · rw [hcode]
    exact hb.lines
  · rw [hstatus]
    cases ht : b.status with
    | none => decide
    | some t => exact fun he => hb.status (ht.trans he)
  · rw [hstatus]
    exact Option.some_ne_none _

theorem logged_of_validated (now : String) {records : List Record}
    (h : ∀ b ∈ records, (∃ x ∈ known, SameRefs b x) ∧ Storable P b) :
    ∀ r ∈ validated now records, Logged P known r := by
  intro r hr
  unfold validated at hr
  cases hp : prepared now records with
  | error e =>
    rw [hp] at hr
    cases hr
  | ok written =>
    rw [hp] at hr
    obtain ⟨b, hb, hv⟩ := mapM_mem hp r hr
    exact logged_validated (h b hb).1 (h b hb).2 hv

theorem staleCopies_known (now : String) (predicate : Record → Bool)
    (h : ∀ r ∈ s.log, Logged P known r) :
    ∀ b ∈ staleCopies P now predicate s.log, (∃ x ∈ known, SameRefs b x) ∧ Storable P b := by
  intro b hb
  obtain ⟨x, hx, rfl⟩ := List.mem_map.mp hb
  have hlog := h x (mem_of_mem_latest (List.mem_of_mem_filter hx))
  obtain ⟨y, hy, hxy⟩ := hlog.known
  have hstale : some statusStale ≠ some "" := by decide
  exact ⟨⟨y, hy, hxy.doc, hxy.code⟩, hlog.storable.lines, hstale⟩

theorem sync_serves (s : Store) {written : List Record} (snippets : Snippets) (replaceAll : Bool)
    (h : Serves P known shown (if replaceAll then {} else s.db.getD {})) (hk : KeysAgree P known)
    (hw : ∀ r ∈ written, Logged P known r) :
    (s.sync P written snippets replaceAll).1.log = s.log ∧
      Serves P known (written.foldl (fun t r => assign (recordKey P) r t) shown)
        ((s.sync P written snippets replaceAll).1.db.getD {}) := by
  obtain ⟨db', hup, hserves⟩ := serves_upsert snippets h hk hw
  have hsame : upsertRecords P (s.db.getD {}) written snippets replaceAll = .ok db' := by
    rw [← hup]
    cases replaceAll <;> rfl
  unfold Store.sync
  rw [hsame]
  exact ⟨rfl, hserves⟩

theorem appendLinks_serves {records : List Record} {snippets : Snippets}
    (h : Serves P known shown (s.db.getD {})) (hk : KeysAgree P known)
    (hw : ∀ r ∈ validated now records, Logged P known r) :
    (appendLinks P now s records snippets).1.log = s.log ++ validated now records ∧
      Serves P known
        ((validated now records).foldl (fun t r => assign (recordKey P) r t) shown)
        ((appendLinks P now s records snippets).1.db.getD {}) := by
  unfold appendLinks validated at *
  cases hp : prepared now records with
  | error e => exact ⟨(List.append_nil _).symm, h⟩
  | ok written =>
    rw [hp] at hw
    cases written with
    | nil => exact ⟨(List.append_nil _).symm, h⟩
    | cons r written => exact sync_serves _ snippets false h hk hw

/-! ## Runs -/

/-- Where no key is owed, the tables serve what the log says. -/
structure Followed (P : Platform) (known : List Record) (w : Store × List RecordKey) : Prop where
  logged : ∀ r ∈ w.1.log, Logged P known r
  served : ∃ shown, Serves P known shown (w.1.db.getD {}) ∧ ∀ k ∉ w.2,
    lookup (recordKey P) k shown = lookup (recordKey P) k (latestRecords P w.1.log)

theorem lookup_written_none {written : List Record} {k : RecordKey}
    (h : k ∉ written.map (recordKey P)) : lookup (recordKey P) k (latestRecords P written) = none :=
  lookup_latest_none.mpr fun r hr he => h (List.mem_map.mpr ⟨r, hr, he⟩)

theorem lookup_written_some {written : List Record} {k : RecordKey}
    (h : k ∈ written.map (recordKey P)) :
    ∃ r, lookup (recordKey P) k (latestRecords P written) = some r := by
  obtain ⟨r, hr, he⟩ := List.mem_map.mp h
  cases hl : lookup (recordKey P) k (latestRecords P written) with
  | some x => exact ⟨x, rfl⟩
  | none => exact absurd he (lookup_latest_none.mp hl r hr)

theorem Followed.paid {w : Store × List RecordKey} {s' : Store} {written : List Record}
    (h : Followed P known w) (hw : ∀ r ∈ written, Logged P known r)
    (hlog : s'.log = w.1.log ++ written)
    (hserves : ∀ shown, Serves P known shown (w.1.db.getD {}) →
      Serves P known (written.foldl (fun t r => assign (recordKey P) r t) shown)
        (s'.db.getD {})) :
    Followed P known (s', w.2.filter fun k => !(written.map (recordKey P)).contains k) := by
  obtain ⟨shown, hshown, hsame⟩ := h.served
  refine ⟨fun r hr => ?_, _, hserves shown hshown, fun k hk => ?_⟩
  · rw [hlog] at hr
    exact (List.mem_append.mp hr).elim (h.logged r) (hw r)
  · rw [hlog, latestRecords, lookup_latest_append, lookup_foldl_assign]
    by_cases hkey : k ∈ written.map (recordKey P)
    · obtain ⟨r, hr⟩ := lookup_written_some hkey
      unfold latestRecords at hr
      rw [hr, Option.some_or, Option.some_or]
    · have hold : k ∉ w.2 := fun hmem => hk (List.mem_filter.mpr ⟨hmem, by simpa using hkey⟩)
      have hnone := lookup_written_none hkey
      unfold latestRecords at hnone
      rw [hnone, Option.none_or, Option.none_or]
      exact hsame k hold

theorem Followed.owes {w : Store × List RecordKey} {written : List Record}
    (h : Followed P known w) (hw : ∀ r ∈ written, Logged P known r) :
    Followed P known ({ w.1 with log := w.1.log ++ written },
      w.2 ++ written.map (recordKey P)) := by
  obtain ⟨shown, hshown, hsame⟩ := h.served
  refine ⟨fun r hr => (List.mem_append.mp hr).elim (h.logged r) (hw r), shown, hshown,
    fun k hk => ?_⟩
  obtain ⟨hold, hkey⟩ := not_or.mp (fun hor => hk (List.mem_append.mpr hor))
  have hnone := lookup_written_none hkey
  unfold latestRecords at hnone ⊢
  rw [lookup_latest_append, hnone, Option.none_or]
  exact hsame k hold

/-- A compaction pays all keys, or owes those of the old log too. -/
theorem Followed.compacted {w : Store × List RecordKey} {records : List Record}
    {snippets : Snippets} {interrupted : Bool} (h : Followed P known w) (hk : KeysAgree P known)
    (hw : ∀ r ∈ validated now records, Logged P known r) :
    Followed P known (trackedStep P w ⟨.compact records snippets, now, interrupted⟩) := by
  obtain ⟨shown, hshown, hsame⟩ := h.served
  unfold trackedStep step owing writes validated at *
  cases hp : prepared now records with
  | error e =>
    have hstays : ∀ s' owed', s' = w.1 → owed' = w.2 → Followed P known (s', owed') := by
      rintro _ _ rfl rfl
      exact h
    refine hstays _ _ ?_ (by simp [hp, Except.toOption])
    cases interrupted <;> simp [cutOff, perform, compactStoreOnReconcile, hp]
  | ok written =>
    have hw : ∀ r ∈ written, Logged P known r := by
      rw [hp] at hw
      exact hw
    cases interrupted with
    | false =>
      obtain ⟨hlog, hserves⟩ :=
        sync_serves (Store.mk written w.1.db w.1.stateActive) snippets true serves_nil hk hw
      simp only [Bool.false_eq_true, if_false, perform, compactStoreOnReconcile, hp,
        Except.toOption, Option.isNone_some]
      refine ⟨?_, _, hserves, fun k _ => ?_⟩
      · show ∀ r ∈ (Store.sync P _ written snippets true).1.log, Logged P known r
        rw [hlog]
        exact hw
      show _ = lookup (recordKey P) k (latestRecords P (Store.sync P _ written snippets true).1.log)
      rw [hlog]
      rfl
    | true =>
      simp only [if_true, cutOff, hp, Except.toOption, Option.isNone_some, Bool.false_eq_true,
        if_false, Option.getD_some]
      refine ⟨hw, shown, hshown, fun k hnot => ?_⟩
      simp only [List.mem_append, not_or] at hnot
      obtain ⟨⟨hold, hlog⟩, hkey⟩ := hnot
      rw [hsame k hold, lookup_written_none hlog, lookup_written_none hkey]

/-- **One call.** Where no key is owed after it, the tables serve what the log says. -/
theorem followed_step {w : Store × List RecordKey} {e : Event} (hk : KeysAgree P known)
    (hrecords : ∀ r ∈ e.call.records, r ∈ known ∧ Storable P r) (h : Followed P known w) :
    Followed P known (trackedStep P w e) := by
  have hhanded : ∀ b ∈ e.call.records, (∃ x ∈ known, SameRefs b x) ∧ Storable P b := fun b hb =>
    ⟨⟨b, (hrecords b hb).1, SameRefs.refl b⟩, (hrecords b hb).2⟩
  obtain ⟨call, now, interrupted⟩ := e
  cases call with
  | append records snippets =>
    have hw := logged_of_validated now hhanded
    cases interrupted with
    | false =>
      obtain ⟨shown, hshown, -⟩ := h.served
      exact h.paid hw (appendLinks_serves hshown hk hw).1 fun _ hshown =>
        (appendLinks_serves hshown hk hw).2
    | true => exact h.owes hw
  | markStale predicate =>
    have hw := logged_of_validated now (staleCopies_known now predicate h.logged)
    cases interrupted with
    | false =>
      obtain ⟨shown, hshown, -⟩ := h.served
      exact h.paid hw (appendLinks_serves hshown hk hw).1 fun _ hshown =>
        (appendLinks_serves hshown hk hw).2
    | true => exact h.owes hw
  | compact records snippets => exact h.compacted hk (logged_of_validated now hhanded)
  | saveSnippets snippets =>
    obtain ⟨shown, hshown, hsame⟩ := h.served
    have hsaved : Followed P known (saveParagraphSnippets w.1 snippets, w.2) :=
      ⟨h.logged, shown, serves_snippets snippets hshown, hsame⟩
    cases interrupted with
    | false =>
      have hpaid : owing P w.1 w.2 ⟨.saveSnippets snippets, now, false⟩ = w.2 := by
        simp [owing, writes]
      unfold trackedStep
      rw [hpaid]
      exact hsaved
    | true =>
      have howes : owing P w.1 w.2 ⟨.saveSnippets snippets, now, true⟩ = w.2 := by
        simp [owing, writes]
      unfold trackedStep
      rw [howes]
      exact h

theorem tracked_fst {w : Store × List RecordKey} (events : List Event) :
    (run (trackedStep P) w events).1 = run (step P) w.1 events := by
  induction events generalizing w with
  | nil => rfl
  | cons e events ih => exact ih

/-- **The tables refine the log.** In every run of writer calls on records that the tables can
hold, they are in sync with the log wherever no key is owed to them, and `latest_links` serves the
latest records. -/
theorem view_refines_log {events : List Event} (hk : KeysAgree P (events.flatMap (·.call.records)))
    (hrecords : ∀ e ∈ events, ∀ r ∈ e.call.records, Storable P r)
    (howed : (run (trackedStep P) ({}, []) events).2 = []) :
    InSync P (run (step P) {} events) ∧ ∀ dbIsNewer,
      ((latestLinks P dbIsNewer (run (step P) {} events)).map (·.view P)).Perm
        ((latestRecords P (run (step P) {} events).log).map (·.view P)) := by
  let known := events.flatMap (·.call.records)
  have hstart : Followed P known ({}, []) :=
    ⟨by simp, [], serves_nil, fun k _ => rfl⟩
  have hrun : Followed P known (run (trackedStep P) ({}, []) events) := by
    refine run_invariant (A := fun e => e ∈ events) (fun w e he h => ?_) hstart events
      fun e he => he
    refine followed_step hk (fun r hr => ⟨?_, hrecords e he r hr⟩) h
    exact List.mem_flatMap.mpr ⟨e, he, hr⟩
  rw [← tracked_fst (w := ({}, []))]
  obtain ⟨shown, hshown, hsame⟩ := hrun.served
  rw [howed] at hsame
  have hsync : InSync P (run (trackedStep P) ({}, []) events).1 := by
    unfold InSync
    rw [hshown.shows hk]
    refine (hshown.keyed.perm (keyed_latest _) fun k => ?_).map _
    exact hsame k List.not_mem_nil
  refine ⟨hsync, fun dbIsNewer => ?_⟩
  unfold latestLinks
  unfold InSync at hsync
  split
  · rename_i db hdb
    rw [hdb] at hsync
    split
    · exact hsync
    · exact List.Perm.refl _
  · exact List.Perm.refl _

instance (records : List Record) : Decidable (KeysAgree P records) :=
  inferInstanceAs (Decidable (∀ a ∈ records, ∀ b ∈ records, _ ∧ _))

/-- The records of a build on one file. -/
def sampleFresh (path : String) : List Record :=
  freshRecords samplePlatform (sampleInputs [path] (.int 1))

/-- The second append is cut off before SQLite commits. -/
def crashEvents : List Event :=
  [⟨.append (sampleFresh "x") [], sampleEnv.now, false⟩,
    ⟨.append (sampleFresh "y") [], sampleEnv.now, true⟩]

/-- The records of the second append are written again. -/
def repairedEvents : List Event :=
  crashEvents ++ [⟨.append (sampleFresh "y") [], sampleEnv.now, false⟩]

theorem sample_views :
    leaves (sampleBuild ["x", "y"] (.int 1) false (run (step samplePlatform) {} crashEvents))
      (fun s _ => (viewRows (s.db.getD {})).length != (latestRecords samplePlatform s.log).length &&
        (latestLinks samplePlatform true s).length !=
          (latestRecords samplePlatform s.log).length) = true ∧
    (run (trackedStep samplePlatform) ({}, []) repairedEvents).2 = [] ∧
    KeysAgree samplePlatform (repairedEvents.flatMap (·.call.records)) := by
  decide +kernel

theorem storable_fresh {path : String} : ∀ r ∈ sampleFresh path, Storable samplePlatform r := by
  intro r hr
  obtain ⟨pair, hpair, rfl⟩ := List.mem_map.mp hr
  have hsym := (mem_of_scored hpair).2
  have hone : pair.symbol = sampleSymbol path (.int 1) := by simpa [sampleInputs] using hsym
  refine ⟨fun a b hlines => ?_, by simp [freshRecord, buildRecord]⟩
  have hab : (a, b) = (.int 1, .int 5) := by
    simp only [freshRecord, buildRecord, hone, sampleSymbol, reduceCtorEq, if_false,
      Option.some.injEq] at hlines
    exact hlines.symm
  obtain ⟨rfl, rfl⟩ := Prod.mk.injEq .. ▸ hab
  exact ⟨⟨rfl, rfl⟩, ⟨rfl, rfl⟩, rfl⟩

theorem storable_repaired :
    ∀ e ∈ repairedEvents, ∀ r ∈ e.call.records, Storable samplePlatform r := by
  intro e he r hr
  simp only [repairedEvents, crashEvents, List.cons_append, List.nil_append, List.mem_cons,
    List.not_mem_nil, or_false] at he
  rcases he with rfl | rfl | rfl <;> exact storable_fresh r hr

/-- A record that was lost is written again. -/
theorem view_refines_log_sample : InSync samplePlatform
      (run (step samplePlatform) {} repairedEvents) ∧ ∀ dbIsNewer,
    ((latestLinks samplePlatform dbIsNewer (run (step samplePlatform) {} repairedEvents)).map
        (·.view samplePlatform)).Perm
      ((latestRecords samplePlatform (run (step samplePlatform) {} repairedEvents).log).map
        (·.view samplePlatform)) :=
  view_refines_log sample_views.2.2 storable_repaired sample_views.2.1

/-- A build that completes after an interrupted append: the log has two records, the tables one. -/
theorem build_after_crash : ∃ (P : Platform) (env : Env) (inp : Inputs) (events : List Event)
    (s : Store) (r : BuildReport), (∀ e ∈ events, ∀ x ∈ e.call.records, Storable P x) ∧
      KeysAgree P (events.flatMap (·.call.records)) ∧
      buildLinks P inp env false false (run (step P) {} events) = (s, .ok r) ∧ ¬ InSync P s ∧
      ¬ ((latestLinks P true s).map (·.view P)).Perm
        ((latestRecords P s.log).map (·.view P)) := by
  obtain ⟨hleaves, -, hagree⟩ := sample_views
  obtain ⟨s, r, hbuild, hne⟩ := exists_of_leaves hleaves
  simp only [Bool.and_eq_true, bne_iff_ne] at hne
  refine ⟨samplePlatform, sampleEnv, _, crashEvents, s, r, fun e he =>
    storable_repaired e (List.mem_append_left _ he), fun a ha b hb => ?_, hbuild, fun h => ?_,
    fun h => ?_⟩
  · have hmem : ∀ x ∈ crashEvents.flatMap (·.call.records),
        x ∈ repairedEvents.flatMap (·.call.records) := fun x hx => by
      rw [repairedEvents, List.flatMap_append]
      exact List.mem_append_left _ hx
    exact hagree a (hmem a ha) b (hmem b hb)
  · exact hne.1 (by simpa using h.length_eq)
  · exact hne.2 (by simpa using h.length_eq)

/-! ## Builds as runs -/

/-- A call that is not interrupted, on some of these records. -/
def Event.CompletesOn (records : List Record) (e : Event) : Prop :=
  e.interrupted = false ∧ ∀ r ∈ e.call.records, r ∈ records

theorem writeLinks_runs {inp : Inputs} {env : Env} {oversized : Bool} {newRecords : List Record} :
    ∃ events, (∀ e ∈ events, Event.CompletesOn newRecords e) ∧
      (writeLinks P inp env s oversized newRecords).1 = run (step P) s events := by
  unfold writeLinks
  dsimp only
  split
  · exact ⟨[⟨.compact newRecords (buildSnippets P inp env), env.now, false⟩],
      List.forall_mem_singleton.mpr ⟨rfl, fun r hr => hr⟩, rfl⟩
  · split
    · split
      · exact ⟨[], by simp, rfl⟩
      · exact ⟨[⟨.saveSnippets (buildSnippets P inp env), env.now, false⟩],
          List.forall_mem_singleton.mpr ⟨rfl, fun r hr => by cases hr⟩, rfl⟩
    · exact ⟨[⟨.append newRecords (buildSnippets P inp env), env.now, false⟩],
        List.forall_mem_singleton.mpr ⟨rfl, fun r hr => hr⟩, rfl⟩

/-- **A build is a run of calls**, none of them interrupted, on its fresh records. -/
theorem buildLinks_runs (inp : Inputs) (env : Env) (reconcile dryRun : Bool) (s : Store) :
    ∃ events, (∀ e ∈ events, Event.CompletesOn (freshRecords P inp) e) ∧
      (buildLinks P inp env reconcile dryRun s).1.log = (run (step P) s events).log ∧
      (buildLinks P inp env reconcile dryRun s).1.db = (run (step P) s events).db := by
  unfold buildLinks
  dsimp only
  split
  · exact ⟨[], by simp, rfl, rfl⟩
  · generalize hover : (reconcile && decide (maxRawLogBytes < (s.log.map env.lineBytes).sum)) =
      oversized
    generalize hpass : (if (dryRun || oversized) = true then (s, Except.ok [])
      else markStale P env.now s fun r => reconcile || drifted P inp r) = stalePass
    -- The stale pass.
    obtain ⟨marked, hmarked, hs₁⟩ : ∃ events : List Event,
        (∀ e ∈ events, Event.CompletesOn (freshRecords P inp) e) ∧
          stalePass.1 = run (step P) s events := by
      rw [← hpass]
      split
      · exact ⟨[], by simp, rfl⟩
      · exact ⟨[⟨.markStale fun r => reconcile || drifted P inp r, env.now, false⟩],
          List.forall_mem_singleton.mpr ⟨rfl, fun r hr => by cases hr⟩, rfl⟩
    obtain ⟨s₁, _ | staled⟩ := stalePass
    · exact ⟨marked, hmarked, congrArg Store.log hs₁, congrArg Store.db hs₁⟩
    · dsimp only at hs₁ ⊢
      generalize hnew : (freshRecords P inp).filter _ = newRecords
      have hsub : ∀ r ∈ newRecords, r ∈ freshRecords P inp := fun r hr =>
        List.mem_of_mem_filter (hnew ▸ hr)
      -- The write step.
      generalize hwrite : (if dryRun = true then (s₁, Except.ok ())
        else writeLinks P inp env s₁ oversized newRecords) = written
      obtain ⟨wrote, hwrote, hs₂⟩ : ∃ events : List Event,
          (∀ e ∈ events, Event.CompletesOn newRecords e) ∧
            written.1 = run (step P) s₁ events := by
        rw [← hwrite]
        split
        · exact ⟨[], by simp, rfl⟩
        · exact writeLinks_runs
      refine ⟨marked ++ wrote, fun e he => ?_, ?_⟩
      · rcases List.mem_append.mp he with he | he
        · exact hmarked e he
        · exact ⟨(hwrote e he).1, fun r hr => hsub r ((hwrote e he).2 r hr)⟩
      · rw [run_append, ← hs₁, ← hs₂]
        obtain ⟨s₂, _ | _⟩ := written
        · exact ⟨rfl, rfl⟩
        · dsimp only
          split <;> exact ⟨rfl, rfl⟩

/-! ## Sequences of builds -/

/-- One call of `build_links`. -/
structure Build where
  inp : Inputs
  env : Env
  reconcile : Bool
  dryRun : Bool

variable (P) in
def buildStep (s : Store) (b : Build) : Store :=
  (buildLinks P b.inp b.env b.reconcile b.dryRun s).1

theorem owing_nil {e : Event} (h : e.interrupted = false) : owing P s [] e = [] := by
  obtain ⟨call, now, interrupted⟩ := e
  obtain rfl : interrupted = false := h
  cases call <;> simp [owing]

theorem Followed.congr {s' : Store} {owed : List RecordKey} (h : Followed P known (s, owed))
    (hlog : s'.log = s.log) (hdb : s'.db = s.db) : Followed P known (s', owed) := by
  obtain ⟨hlogged, hserved⟩ := h
  refine ⟨fun r hr => hlogged r (hlog ▸ hr), ?_⟩
  dsimp only at hserved ⊢
  rwa [hlog, hdb]

/-- Calls that complete leave nothing owed. -/
theorem Followed.run {events : List Event} (hk : KeysAgree P known)
    (hevents : ∀ e ∈ events, e.interrupted = false ∧
      ∀ r ∈ e.call.records, r ∈ known ∧ Storable P r)
    (h : Followed P known (s, [])) : Followed P known (Run.run (step P) s events, []) := by
  induction events generalizing s with
  | nil => exact h
  | cons e events ih =>
    rw [run_cons]
    refine ih (fun e' he' => hevents e' (List.mem_cons_of_mem _ he')) ?_
    obtain ⟨hcomplete, hrecords⟩ := hevents e List.mem_cons_self
    have hstep := followed_step hk hrecords h
    unfold trackedStep at hstep
    rwa [owing_nil hcomplete] at hstep

theorem Followed.build {b : Build} (hk : KeysAgree P known)
    (hrecords : ∀ r ∈ freshRecords P b.inp, r ∈ known ∧ Storable P r)
    (h : Followed P known (s, [])) : Followed P known (buildStep P s b, []) := by
  obtain ⟨events, hevents, hlog, hdb⟩ := buildLinks_runs b.inp b.env b.reconcile b.dryRun s
  refine (h.run hk fun e he => ?_).congr hlog hdb
  exact ⟨(hevents e he).1, fun r hr => hrecords r ((hevents e he).2 r hr)⟩

/-- **Builds keep the tables in sync**: after every sequence of builds, incremental ones, reconcile
builds, dry runs and those that raise, on records that the tables can hold. -/
theorem builds_in_sync {builds : List Build}
    (hk : KeysAgree P (builds.flatMap fun b => freshRecords P b.inp))
    (hrecords : ∀ b ∈ builds, ∀ r ∈ freshRecords P b.inp, Storable P r) :
    InSync P (Run.run (buildStep P) {} builds) ∧ ∀ dbIsNewer,
      ((latestLinks P dbIsNewer (Run.run (buildStep P) {} builds)).map (·.view P)).Perm
        ((latestRecords P (Run.run (buildStep P) {} builds).log).map (·.view P)) := by
  let known := builds.flatMap fun b => freshRecords P b.inp
  have hrun : Followed P known (Run.run (buildStep P) {} builds, []) := by
    refine run_invariant (I := fun s => Followed P known (s, [])) (A := (· ∈ builds))
      (fun s b hb h => h.build hk fun r hr => ?_) ⟨by simp, [], serves_nil, fun k _ => rfl⟩
      builds fun b hb => hb
    exact ⟨List.mem_flatMap.mpr ⟨b, hb, hr⟩, hrecords b hb r hr⟩
  obtain ⟨shown, hshown, hsame⟩ := hrun.served
  have hsync : InSync P (Run.run (buildStep P) {} builds) := by
    unfold InSync
    rw [hshown.shows hk]
    exact (hshown.keyed.perm (keyed_latest _) fun k => hsame k List.not_mem_nil).map _
  refine ⟨hsync, fun dbIsNewer => ?_⟩
  unfold latestLinks
  unfold InSync at hsync
  split
  · rename_i db hdb
    rw [hdb] at hsync
    split
    · exact hsync
    · exact List.Perm.refl _
  · exact List.Perm.refl _

def sampleBuilds : List Build :=
  [⟨sampleInputs ["x"] (.int 1), sampleEnv, false, false⟩,
    ⟨sampleInputs ["y"] (.int 1), sampleEnv, true, false⟩]

theorem builds_in_sync_sample : InSync samplePlatform
    (Run.run (buildStep samplePlatform) {} sampleBuilds) := by
  refine (builds_in_sync (by decide +kernel) fun b hb r hr => ?_).1
  rcases List.mem_pair.mp hb with rfl | rfl <;> exact storable_fresh r hr

end CortexHarness.Link
