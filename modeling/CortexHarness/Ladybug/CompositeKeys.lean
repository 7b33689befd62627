import CortexHarness.Library.Dict
import CortexHarness.Library.Firsts
import CortexHarness.Library.JsonEq
import CortexHarness.Library.Python
import CortexHarness.Library.Search
import CortexHarness.Library.Separator
import CortexHarness.Library.Text

/-!
# The keys of paragraphs in the embedded graph

Model of `merge_key_composite_value` (`graph/schema/ladybug_schema.py`) and of
`_rewrite_composite_merge_keys` (`graph/driver/ladybug_driver.py`), which give each `MERGE` of a
`Paragraph` the one column that LadybugDB takes for a primary key.

* Two parameters are two lists: no row stands in both.
* `MERGE` finds a node by what it is keyed by, or makes one: the rows that make a node are the
  `firsts` of the rows. A table of LadybugDB is keyed by `__pk`, a provider without a schema by the
  pair of fields.

Results:
* `RowWrite.key_eq`, `ScalarWrite.key_eq`: what `__pk` is bound to, wherever the fields are read;
* `paragraphs_merge_alike_iff`: paragraphs keep their identity iff no two of them are shifted over
  the separator;
* `compositeKey_inj_of_int`: the writers number paragraphs, and a number is never shifted.
-/

namespace CortexHarness.Ladybug

open Json Matcher CortexHarness.Table Separator

/-! ## The value -/

/-- `_COMPOSITE_MERGE_KEYS` -/
def compositeMergeKeys : List (String × List String) :=
  [("Paragraph", ["source_id", "paragraph_id"])]

variable (py : Python) (alphabet : Alphabet)

/-- `merge_key_composite_value` -/
def mergeKeyCompositeValue (label : String) (fields : Row) : Option String :=
  match compositeMergeKeys.lookup label with
  | none => none
  | some merge =>
    (merge.mapM fun name => (find? fields name).map py.str).map ("::".intercalate ·)

/-! ## The statement -/

/-- `_UNWIND_RE`: the parameter and the variable. -/
def unwind : Reader (String × String) := fun c =>
  (seq [exactly "UNWIND", plus isSpace, exactly "$"] c).flatMap fun paramStart =>
  (plus alphabet.word paramStart).flatMap fun paramStop =>
  (seq [plus isSpace, exactly "AS", plus isSpace] paramStop).flatMap fun varStart =>
  (plus alphabet.word varStart).map fun varStop =>
    ((between paramStart paramStop, between varStart varStop), varStop)

/-- What `MERGE (var:Label {body})` captures, and where the body stands. -/
structure MergeHead where
  var : String
  body : String
  start : Nat
  stop : Nat
  deriving DecidableEq

/-- `MERGE \(\s*(\w+)\s*:\s*Label\s*\{\s*([^}]*?)\s*\}\s*\)` -/
def mergeHead (label : String) : Reader MergeHead := fun c =>
  (seq [exactly "MERGE (", star isSpace] c).flatMap fun varStart =>
  (plus alphabet.word varStart).flatMap fun varStop =>
  (seq [star isSpace, exactly ":", star isSpace, exactly label, star isSpace, exactly "\x7b",
    star isSpace] varStop).flatMap fun bodyStart =>
  (lazyStar (· != '\x7d') bodyStart).flatMap fun bodyStop =>
  (seq [star isSpace, exactly "\x7d", star isSpace, exactly ")"] bodyStop).map fun stop =>
    (⟨between varStart varStop, between bodyStart bodyStop, bodyStart.before.length,
      bodyStop.before.length⟩, stop)

/-- `(\w+)\.` -/
def dotted : Reader String := fun c =>
  (plus alphabet.word c).flatMap fun stop =>
  (one (· == '.') stop).map fun dot => (between c stop, dot)

/-- `part in text` -/
def occurs (part text : String) : Bool := text.toList.tails.any part.toList.isPrefixOf

/-- The variable that the first field of a property map is read from. -/
def rowVar (body : String) : Option String :=
  (dotted alphabet).search? (body.toList.takeWhile (· ≠ ','))

/-- `unwind_map.get(var)`: the list that the variable goes through. -/
def unwoundParam (query var : String) : Option String :=
  (((findAll (unwind alphabet) query.toList).map Found.captured).reverse.find? (·.2 == var)).map
    Prod.fst

/-- The matches of the label's pattern in a query. -/
def mergeHeads (label query : String) : List MergeHead :=
  (findAll (mergeHead alphabet label) query.toList).map Found.captured

/-! ## The rewriting -/

/-- `row["__pk"] = merge_key_composite_value(label, row) or row.get("__pk")` -/
def keyRow (label : String) : Json → Json
  | .obj row => .obj (put row "__pk"
      (either (((mergeKeyCompositeValue py label row).map .str).getD .null) (field row "__pk")))
  | value => value

/-- The rows of a list parameter, each with its key. -/
def keyRows (label : String) (params : Row) (param : String) : Row :=
  match find? params param with
  | some (.arr rows) => put params param (.arr (rows.map (keyRow py label)))
  | _ => params

/-- `__cmp_pk_0`, … -/
def pkParam (index : Nat) : String := "__cmp_pk_" ++ toString index

/-- The `__pk` of a `MERGE` whose fields are parameters. -/
def scalarValue (label : String) (names : List String) (params : Row) : Option String :=
  mergeKeyCompositeValue py label (names.map fun name => (name, field params name))

/-- One turn of the loop over the matches: the parameters, and what the bodies become. -/
def rewriteHead (query label : String) (names : List String)
    (state : Row × List (MergeHead × String)) (item : MergeHead × Nat) :
    Row × List (MergeHead × String) :=
  let body := item.1.body
  if names.all (occurs · body) then
    if occurs "row." body then
      let var := rowVar alphabet body
      let params := match unwoundParam alphabet query (var.getD "") with
        | some param => keyRows py label state.1 param
        | none => state.1
      (params, state.2 ++ [(item.1, body ++ ", __pk: " ++ var.getD "None" ++ ".__pk")])
    else
      match scalarValue py label names state.1 with
      | none => state
      | some value => (put state.1 (pkParam item.2) (.str value),
          state.2 ++ [(item.1, body ++ ", __pk: $" ++ pkParam item.2)])
  else state

/-- `query[:match.start(2)] + injected + query[match.end(2):]` -/
def inject (query : List Char) (item : MergeHead × String) : List Char :=
  query.take item.1.start ++ item.2.toList ++ query.drop item.1.stop

/-- The loop of one label. -/
def rewriteHeads (query label : String) (names : List String) (params : Row) :
    Row × List (MergeHead × String) :=
  (mergeHeads alphabet label query).zipIdx.foldl (rewriteHead py alphabet query label names)
    (params, [])

/-- `_rewrite_composite_merge_keys` -/
def rewriteCompositeMergeKeys (query : String) (params : Row) : String × Row :=
  compositeMergeKeys.foldl (fun state entry =>
    let done := rewriteHeads py alphabet state.1 entry.1 entry.2 state.2
    (String.ofList (done.2.reverse.foldl inject state.1.toList), done.1)) (query, params)

/-- The two fields of a paragraph, in one text. -/
def compositeKey (source paragraph : String) : String := source ++ "::" ++ paragraph

variable {py alphabet}

/-! ## Laws of the value -/

section Value

variable {fields : Row} {source : String} {paragraph : Json}

theorem compositeValue_eq (hsource : find? fields "source_id" = some (.str source))
    (hparagraph : find? fields "paragraph_id" = some paragraph) :
    mergeKeyCompositeValue py "Paragraph" fields =
      some (compositeKey source (py.str paragraph)) := by
  have hlabel : compositeMergeKeys.lookup "Paragraph" = some ["source_id", "paragraph_id"] := rfl
  rw [mergeKeyCompositeValue, hlabel]
  simp only [List.mapM_cons, List.mapM_nil, hsource, hparagraph]
  rfl

theorem compositeKey_ne_empty (source paragraph : String) : compositeKey source paragraph ≠ "" := by
  intro h
  have hlist := congrArg String.toList h
  simp [compositeKey] at hlist

theorem keyRow_obj (hsource : find? fields "source_id" = some (.str source))
    (hparagraph : find? fields "paragraph_id" = some paragraph) :
    keyRow py "Paragraph" (.obj fields) =
      .obj (put fields "__pk" (.str (compositeKey source (py.str paragraph)))) := by
  have htruthy : (Json.str (compositeKey source (py.str paragraph))).truthy = true := by
    simpa [Json.truthy] using compositeKey_ne_empty source (py.str paragraph)
  rw [keyRow, compositeValue_eq hsource hparagraph, Json.either, Option.map_some, Option.getD_some,
    if_pos htruthy]

theorem scalarValue_eq {params : Row} (hsource : find? params "source_id" = some (.str source))
    (hparagraph : find? params "paragraph_id" = some paragraph) :
    scalarValue py "Paragraph" ["source_id", "paragraph_id"] params =
      some (compositeKey source (py.str paragraph)) := by
  refine compositeValue_eq ?_ ?_
  · have hfield : field params "source_id" = .str source := by rw [field, hsource]; rfl
    rw [← hfield]
    rfl
  · have hfield : field params "paragraph_id" = paragraph := by rw [field, hparagraph]; rfl
    rw [← hfield]
    rfl

end Value

/-! ## Laws of the loop -/

section Loop

variable {query label : String} {names : List String} {params : Row}

theorem find?_keyRows (param name : String) :
    find? (keyRows py label params param) name =
      if name = param then (find? params param).map fun value =>
        match value with
        | .arr rows => .arr (rows.map (keyRow py label))
        | value => value
      else find? params name := by
  unfold keyRows
  split
  · next rows hrows =>
    rw [find?_put]
    split
    · rw [hrows]
      rfl
    · rfl
  · next hrows =>
    split
    · next hname =>
      subst hname
      cases hvalue : find? params name with
      | none => rfl
      | some value =>
        cases value <;> first | rfl | exact absurd hvalue (hrows _)
    · rfl

theorem find?_keyRows_str {name value : String} (h : find? params name = some (.str value))
    (param : String) : find? (keyRows py label params param) name = some (.str value) := by
  rw [find?_keyRows]
  split
  · next hname => rw [← hname, h]; rfl
  · exact h

theorem pkParam_ne_field {name : String} (hname : name ∈ ["source_id", "paragraph_id"])
    (index : Nat) : name ≠ pkParam index := by
  intro h
  have hlist := congrArg (fun t : String => t.toList.head?) h
  have hpk : (pkParam index).toList.head? = some '_' := by simp [pkParam]
  simp only [hpk] at hlist
  rcases List.mem_cons.mp hname with rfl | hname
  · exact absurd hlist (by decide)
  · rw [List.mem_singleton.mp hname] at hlist
    exact absurd hlist (by decide)

/-- **What a turn does to the parameters**: it keys the rows of a list, or binds a key of its own,
or nothing. -/
theorem rewriteHead_params (state : Row × List (MergeHead × String)) (item : MergeHead × Nat) :
    (rewriteHead py alphabet query label names state item).1 = state.1 ∨
      (∃ param, (rewriteHead py alphabet query label names state item).1 =
        keyRows py label state.1 param) ∨
      ∃ value, scalarValue py label names state.1 = some value ∧
        (rewriteHead py alphabet query label names state item).1 =
          put state.1 (pkParam item.2) (.str value) := by
  unfold rewriteHead
  dsimp only
  split
  · split
    · cases unwoundParam alphabet query ((rowVar alphabet item.1.body).getD "") with
      | none => exact .inl rfl
      | some param => exact .inr (.inl ⟨param, rfl⟩)
    · cases hvalue : scalarValue py label names state.1 with
      | none => exact .inl rfl
      | some value => exact .inr (.inr ⟨value, rfl, rfl⟩)
  · exact .inl rfl

theorem rewriteHead_preserves {P : Row → Prop} {state : Row × List (MergeHead × String)}
    (item : MergeHead × Nat) (h : P state.1) (hrows : ∀ param, P (keyRows py label state.1 param))
    (hput : ∀ value, scalarValue py label names state.1 = some value →
      P (put state.1 (pkParam item.2) (.str value))) :
    P (rewriteHead py alphabet query label names state item).1 := by
  rcases @rewriteHead_params py alphabet query label names state item with
    he | ⟨param, he⟩ | ⟨value, hvalue, he⟩
  · rwa [he]
  · rw [he]
    exact hrows param
  · rw [he]
    exact hput value hvalue

/-- What the turn of one match establishes and every turn preserves holds in the end. -/
theorem rewriteHeads_invariant (before after : Row → Prop) {index : Nat} {head : MergeHead}
    (hhead : (mergeHeads alphabet label query)[index]? = some head) (hparams : before params)
    (hbefore : ∀ state item, before state.1 →
      before (rewriteHead py alphabet query label names state item).1)
    (hturn : ∀ state, before state.1 →
      after (rewriteHead py alphabet query label names state (head, index)).1)
    (hafter : ∀ state item, before state.1 → after state.1 →
      after (rewriteHead py alphabet query label names state item).1) :
    after (rewriteHeads py alphabet query label names params).1 := by
  have hrun : ∀ (items : List (MergeHead × Nat)) (state : Row × List (MergeHead × String)),
      before state.1 →
        before (items.foldl (rewriteHead py alphabet query label names) state).1 ∧
        (after state.1 →
          after (items.foldl (rewriteHead py alphabet query label names) state).1) := by
    intro items
    induction items with
    | nil => exact fun state h => ⟨h, id⟩
    | cons item items ih =>
      intro state h
      obtain ⟨hb, ha⟩ := ih _ (hbefore state item h)
      exact ⟨hb, fun h' => ha (hafter state item h h')⟩
  obtain ⟨pre, post, hsplit⟩ :=
    List.append_of_mem (List.mk_mem_zipIdx_iff_getElem?.mpr hhead)
  rw [rewriteHeads, hsplit, List.foldl_append, List.foldl_cons]
  have hpre := (hrun pre (params, []) hparams).1
  exact (hrun post _ (hbefore _ _ hpre)).2 (hturn _ hpre)

end Loop

theorem rewriteCompositeMergeKeys_params (query : String) (params : Row) :
    (rewriteCompositeMergeKeys py alphabet query params).2 =
      (rewriteHeads py alphabet query "Paragraph" ["source_id", "paragraph_id"] params).1 := rfl

/-! ## Writes of a paragraph -/

/-- A `MERGE` of a `Paragraph` in a statement. -/
structure ParagraphMerge (alphabet : Alphabet) where
  query : String
  params : Row
  /-- the match -/
  index : Nat
  head : MergeHead
  hhead : (mergeHeads alphabet "Paragraph" query)[index]? = some head
  hnames : ["source_id", "paragraph_id"].all (occurs · head.body) = true

/-- A paragraph that a statement takes from a row of its list. -/
structure RowWrite (alphabet : Alphabet) extends ParagraphMerge alphabet where
  hform : occurs "row." head.body = true
  /-- the list, which is no parameter of the driver's own -/
  param : String
  hparam : unwoundParam alphabet query ((rowVar alphabet head.body).getD "") = some param
  hown : ∀ n, param ≠ pkParam n
  rows : List Json
  hrows : find? params param = some (.arr rows)
  /-- the row -/
  place : Nat
  row : Row
  hrow : rows[place]? = some (.obj row)
  source : String
  hsource : find? row "source_id" = some (.str source)
  paragraph : String
  hparagraph : find? row "paragraph_id" = some (.str paragraph)

/-- A paragraph that a statement takes from its parameters. -/
structure ScalarWrite (alphabet : Alphabet) extends ParagraphMerge alphabet where
  hform : occurs "row." head.body = false
  source : String
  hsource : find? params "source_id" = some (.str source)
  paragraph : String
  hparagraph : find? params "paragraph_id" = some (.str paragraph)

/-- `row["__pk"]` of the row at a place of a list parameter. -/
def rowKeyAt (params : Row) (param : String) (place : Nat) : Json :=
  match find? params param with
  | some (.arr rows) =>
    match rows[place]? with
    | some (.obj row) => field row "__pk"
    | _ => .null
  | _ => .null

/-- What `__pk: row.__pk` reads. -/
def RowWrite.key (py : Python) (w : RowWrite alphabet) : Json :=
  rowKeyAt (rewriteCompositeMergeKeys py alphabet w.query w.params).2 w.param w.place

/-- What `__pk: $__cmp_pk_…` reads. -/
def ScalarWrite.key (py : Python) (w : ScalarWrite alphabet) : Json :=
  field (rewriteCompositeMergeKeys py alphabet w.query w.params).2 (pkParam w.index)

/-- The row at a place of a list parameter has the two fields. -/
def RowAt (param : String) (place : Nat) (source paragraph : String) (params : Row) : Prop :=
  ∃ rows row, find? params param = some (.arr rows) ∧ rows[place]? = some (.obj row) ∧
    find? row "source_id" = some (.str source) ∧ find? row "paragraph_id" = some (.str paragraph)

theorem RowAt.keyRows {param : String} {place : Nat} {source paragraph : String} {params : Row}
    (h : RowAt param place source paragraph params) (other : String) :
    RowAt param place source paragraph (keyRows py "Paragraph" params other) := by
  obtain ⟨rows, row, hrows, hrow, hsource, hparagraph⟩ := h
  by_cases hother : param = other
  · subst hother
    refine ⟨rows.map (keyRow py "Paragraph"),
      put row "__pk" (.str (compositeKey source paragraph)), ?_, ?_, ?_, ?_⟩
    · rw [find?_keyRows, if_pos rfl, hrows]
      rfl
    · rw [List.getElem?_map, hrow, Option.map_some, keyRow_obj hsource hparagraph]
      rfl
    · rw [find?_put, if_neg (by decide), hsource]
    · rw [find?_put, if_neg (by decide), hparagraph]
  · exact ⟨rows, row, by rw [find?_keyRows, if_neg hother, hrows], hrow, hsource, hparagraph⟩

theorem rowKeyAt_keyRows {param : String} {place : Nat} {source paragraph : String} {params : Row}
    (h : RowAt param place source paragraph params) :
    rowKeyAt (keyRows py "Paragraph" params param) param place =
      .str (compositeKey source paragraph) := by
  obtain ⟨rows, row, hrows, hrow, hsource, hparagraph⟩ := h
  have hkeyed : find? (Ladybug.keyRows py "Paragraph" params param) param =
      some (.arr (rows.map (keyRow py "Paragraph"))) := by
    rw [find?_keyRows, if_pos rfl, hrows]
    rfl
  rw [rowKeyAt, hkeyed]
  simp only [List.getElem?_map, hrow, Option.map_some, keyRow_obj hsource hparagraph]
  rw [field_put, if_pos rfl]
  rfl

/-- **The rows of a list are bound to the text of their two fields.** -/
theorem RowWrite.key_eq (w : RowWrite alphabet) :
    w.key py = .str (compositeKey w.source w.paragraph) := by
  have hother : ∀ (params : Row) (n : Nat) (value : Json),
      find? (put params (pkParam n) value) w.param = find? params w.param := by
    intro params n value
    rw [find?_put, if_neg (w.hown n)]
  unfold RowWrite.key
  rw [rewriteCompositeMergeKeys_params]
  refine rewriteHeads_invariant (RowAt w.param w.place w.source w.paragraph)
    (fun params => rowKeyAt params w.param w.place = .str (compositeKey w.source w.paragraph))
    w.hhead ⟨w.rows, w.row, w.hrows, w.hrow, w.hsource, w.hparagraph⟩ ?_ ?_ ?_
  · intro state item h
    refine rewriteHead_preserves item h h.keyRows fun value _ => ?_
    obtain ⟨rows, row, hrows, hrest⟩ := h
    exact ⟨rows, row, by rw [hother, hrows], hrest⟩
  · intro state h
    have hparams : (rewriteHead py alphabet w.query "Paragraph" ["source_id", "paragraph_id"] state
        (w.head, w.index)).1 = keyRows py "Paragraph" state.1 w.param := by
      unfold rewriteHead
      dsimp only
      rw [if_pos w.hnames, if_pos w.hform, w.hparam]
    rw [hparams]
    exact rowKeyAt_keyRows h
  · intro state item h hkey
    refine rewriteHead_preserves
      (P := fun params =>
        rowKeyAt params w.param w.place = .str (compositeKey w.source w.paragraph))
      item hkey (fun param => ?_) fun value _ => ?_
    · by_cases hparam : param = w.param
      · subst hparam
        exact rowKeyAt_keyRows h
      · rwa [rowKeyAt, find?_keyRows, if_neg (Ne.symm hparam), ← rowKeyAt]
    · rwa [rowKeyAt, hother, ← rowKeyAt]

/-- The two fields stand among the parameters. -/
def ScalarAt (source paragraph : String) (params : Row) : Prop :=
  find? params "source_id" = some (.str source) ∧
    find? params "paragraph_id" = some (.str paragraph)

/-- **A statement's own fields are bound to their text.** -/
theorem ScalarWrite.key_eq (w : ScalarWrite alphabet) :
    w.key py = .str (compositeKey w.source w.paragraph) := by
  have hvalue : ∀ {params}, ScalarAt w.source w.paragraph params →
      scalarValue py "Paragraph" ["source_id", "paragraph_id"] params =
        some (compositeKey w.source w.paragraph) := fun h => scalarValue_eq h.1 h.2
  have hother : ∀ (params : Row) (n : Nat) (value : Json) {name : String},
      name ∈ ["source_id", "paragraph_id"] →
      find? (put params (pkParam n) value) name = find? params name := by
    intro params n value name hname
    rw [find?_put, if_neg (pkParam_ne_field hname n)]
  have hkey : find? (rewriteCompositeMergeKeys py alphabet w.query w.params).2 (pkParam w.index) =
      some (.str (compositeKey w.source w.paragraph)) := by
    rw [rewriteCompositeMergeKeys_params]
    refine rewriteHeads_invariant (ScalarAt w.source w.paragraph)
      (fun params => find? params (pkParam w.index) =
        some (.str (compositeKey w.source w.paragraph))) w.hhead ⟨w.hsource, w.hparagraph⟩ ?_ ?_ ?_
    · intro state item h
      refine rewriteHead_preserves item h
        (fun param => ⟨find?_keyRows_str h.1 param, find?_keyRows_str h.2 param⟩) fun value _ => ?_
      exact ⟨(hother _ _ _ (by simp)).trans h.1, (hother _ _ _ (by simp)).trans h.2⟩
    · intro state h
      have hform : ¬ occurs "row." w.head.body = true := by rw [w.hform]; exact Bool.false_ne_true
      have hparams : (rewriteHead py alphabet w.query "Paragraph" ["source_id", "paragraph_id"]
          state (w.head, w.index)).1 =
            put state.1 (pkParam w.index) (.str (compositeKey w.source w.paragraph)) := by
        unfold rewriteHead
        dsimp only
        rw [if_pos w.hnames, if_neg hform, hvalue h]
      rw [hparams, find?_put, if_pos rfl]
    · intro state item h hkey
      refine rewriteHead_preserves (P := fun params => find? params (pkParam w.index) =
        some (.str (compositeKey w.source w.paragraph))) item hkey (find?_keyRows_str hkey) ?_
      intro value hscalar
      rw [hvalue h] at hscalar
      rw [find?_put, ← Option.some.inj hscalar]
      split
      · rfl
      · exact hkey
  rw [ScalarWrite.key, field, hkey]
  rfl

/-! ## The paragraphs of a run -/

/-- A write of a paragraph, in either form. -/
inductive ParagraphWrite (alphabet : Alphabet)
  | row (write : RowWrite alphabet)
  | scalar (write : ScalarWrite alphabet)

namespace ParagraphWrite

/-- `{source_id, paragraph_id}` -/
def fields : ParagraphWrite alphabet → String × String
  | .row w => (w.source, w.paragraph)
  | .scalar w => (w.source, w.paragraph)

/-- `__pk` -/
def key (py : Python) : ParagraphWrite alphabet → Json
  | .row w => w.key py
  | .scalar w => w.key py

theorem key_eq (w : ParagraphWrite alphabet) :
    w.key py = .str (compositeKey w.fields.1 w.fields.2) := by
  cases w with
  | row w => exact w.key_eq
  | scalar w => exact w.key_eq

end ParagraphWrite

/-- One colon, or two with what stands between them, are in the other field. -/
def Shifted (p q : String × String) : Prop :=
  (q.1 = p.1 ++ ":" ∧ p.2 = ":" ++ q.2) ∨ ∃ w, q.1 = p.1 ++ "::" ++ w ∧ p.2 = w ++ "::" ++ q.2

/-- LadybugDB makes the paragraphs that a provider without a schema makes. -/
structure MergedAlike (py : Python) (writes : List (ParagraphWrite alphabet)) : Prop where
  /-- two writes have one key iff they have the same fields -/
  identity : ∀ w ∈ writes, ∀ w' ∈ writes, w.key py = w'.key py ↔ w.fields = w'.fields
  /-- the writes that make a node -/
  nodes : firsts (ParagraphWrite.key py) writes = firsts ParagraphWrite.fields writes

theorem shifted_iff {p q : String × String} :
    Shifted p q ↔ Shift [':', ':'] (p.1.toList, p.2.toList) (q.1.toList, q.2.toList) := by
  rw [shifted_colons]
  simp only [Shifted, ← String.toList_inj, String.toList_append]
  constructor
  · rintro (h | ⟨w, hfirst, hsecond⟩)
    · exact .inl h
    · exact .inr ⟨w.toList, by simpa using hfirst, by simpa using hsecond⟩
  · rintro (h | ⟨w, hfirst, hsecond⟩)
    · exact .inl h
    · refine .inr ⟨String.ofList w, ?_, ?_⟩
      · simpa [String.toList_ofList] using hfirst
      · simpa [String.toList_ofList] using hsecond

theorem toList_compositeKey (source paragraph : String) :
    (compositeKey source paragraph).toList = source.toList ++ [':', ':'] ++ paragraph.toList := by
  rw [compositeKey, String.toList_append, String.toList_append]
  rfl

theorem compositeKey_eq_iff {p q : String × String} :
    compositeKey p.1 p.2 = compositeKey q.1 q.2 ↔ p = q ∨ Shifted p q ∨ Shifted q p := by
  rw [← String.toList_inj, toList_compositeKey, toList_compositeKey, shifted_iff, shifted_iff]
  constructor
  · intro h
    rcases append_separator_inj (p := (p.1.toList, p.2.toList))
      (q := (q.1.toList, q.2.toList)) h with he | hshift
    · obtain ⟨hfirst, hsecond⟩ := Prod.mk.inj he
      exact .inl (Prod.ext (String.toList_inj.mp hfirst) (String.toList_inj.mp hsecond))
    · exact .inr hshift
  · rintro (rfl | hshift | hshift)
    · rfl
    · exact hshift.append_eq
    · exact hshift.append_eq.symm

theorem Shifted.ne {p q : String × String} (h : Shifted p q) : p ≠ q := by
  rintro rfl
  exact (shifted_iff.mp h).ne rfl

/-- **Paragraphs keep their identity iff no two of them are shifted over the separator.** -/
theorem paragraphs_merge_alike_iff (py : Python) (writes : List (ParagraphWrite alphabet)) :
    MergedAlike py writes ↔
      ∀ w ∈ writes, ∀ w' ∈ writes, ¬ Shifted w.fields w'.fields := by
  have hkey : ∀ w w' : ParagraphWrite alphabet, w.key py = w'.key py ↔
      w.fields = w'.fields ∨ Shifted w.fields w'.fields ∨ Shifted w'.fields w.fields := by
    intro w w'
    rw [w.key_eq, w'.key_eq, Json.str.injEq, compositeKey_eq_iff]
  constructor
  · intro h w hw w' hw' hshift
    exact hshift.ne ((h.identity w hw w' hw').mp ((hkey w w').mpr (.inr (.inl hshift))))
  · intro h
    have hfields : ∀ w ∈ writes, ∀ w' ∈ writes, w.key py = w'.key py → w.fields = w'.fields := by
      intro w hw w' hw' he
      rcases (hkey w w').mp he with he | hshift | hshift
      · exact he
      · exact absurd hshift (h w hw w' hw')
      · exact absurd hshift (h w' hw' w hw)
    refine ⟨fun w hw w' hw' => ⟨hfields w hw w' hw', fun he => (hkey w w').mpr (.inl he)⟩, ?_⟩
    exact (firsts_eq_iff fun w _ w' _ he => (hkey w w').mpr (.inl he)).mpr hfields

/-- No digest, no container and no number is read for a paragraph. -/
def paragraphPython : Python := ⟨id, fun _ => "", id, fun _ => .ok 0⟩

/-- A paragraph of the batch writer. -/
def batchSample (source paragraph : String) : RowWrite ascii where
  query := "UNWIND $paragraphs AS row
MERGE (p:Paragraph \x7bsource_id: row.source_id, paragraph_id: row.paragraph_id\x7d)"
  params := [("paragraphs",
    .arr [.obj [("source_id", .str source), ("paragraph_id", .str paragraph)]])]
  index := 0
  head := ⟨"p", "source_id: row.source_id, paragraph_id: row.paragraph_id", 46, 102⟩
  hhead := by decide +kernel
  hnames := by decide +kernel
  hform := by decide +kernel
  param := "paragraphs"
  hparam := by decide +kernel
  hown := fun n h => absurd (congrArg (fun t : String => t.toList.head?) h) (by simp [pkParam])
  rows := [.obj [("source_id", .str source), ("paragraph_id", .str paragraph)]]
  hrows := rfl
  place := 0
  row := [("source_id", .str source), ("paragraph_id", .str paragraph)]
  hrow := rfl
  source := source
  hsource := rfl
  paragraph := paragraph
  hparagraph := rfl

/-- A paragraph of the single writer. -/
def singleSample (source paragraph : String) : ScalarWrite ascii where
  query := "MERGE (p:Paragraph \x7bsource_id: $source_id, paragraph_id: $paragraph_id\x7d)"
  params := [("source_id", .str source), ("paragraph_id", .str paragraph)]
  index := 0
  head := ⟨"p", "source_id: $source_id, paragraph_id: $paragraph_id", 20, 70⟩
  hhead := by decide +kernel
  hnames := by decide +kernel
  hform := by decide +kernel
  source := source
  hsource := rfl
  paragraph := paragraph
  hparagraph := rfl

/-- A colon that ends one source and begins the other's paragraph. -/
theorem shifted_paragraphs_merge : ¬ MergedAlike paragraphPython
    [.row (batchSample "doc:" "7"), .scalar (singleSample "doc" ":7")] := by
  intro h
  have hkey : (ParagraphWrite.row (batchSample "doc:" "7")).key paragraphPython =
      (ParagraphWrite.scalar (singleSample "doc" ":7")).key paragraphPython := by
    rw [ParagraphWrite.key_eq, ParagraphWrite.key_eq]
    decide
  have hfields := (h.identity _ (by simp) _ (by simp)).mp hkey
  exact absurd hfields (by decide)

/-- **The writers number paragraphs, and then the text tells both fields.** -/
theorem compositeKey_inj_of_int {source source' : String} {n n' : Nat}
    (h : compositeKey source (py.str (.int n)) = compositeKey source' (py.str (.int n'))) :
    source = source' ∧ n = n' := by
  have hdigits : ∀ n : Nat, ':' ∉ (toString n).toList.reverse := by
    intro n hin
    have hdigit := isDigit_toString (List.mem_reverse.mp hin)
    exact absurd hdigit (by decide)
  have hlist : (compositeKey source (toString n)).toList.reverse =
      (compositeKey source' (toString n')).toList.reverse := congrArg (fun t => t.toList.reverse) h
  simp only [toList_compositeKey, List.reverse_append, List.reverse_cons, List.reverse_nil,
    List.nil_append, List.singleton_append] at hlist
  obtain ⟨hnumber, hrest⟩ := append_cons_inj (hdigits n) (hdigits n') hlist
  refine ⟨?_, toString_injective (List.reverse_inj.mp hnumber)⟩
  exact String.toList_inj.mp (List.reverse_inj.mp (List.cons.inj hrest).2)

end CortexHarness.Ladybug
