import CortexHarness.Docs.Folder

/-!
# Sequences of folder ingests

What a sequence of graph-only, vector-only and full folder ingests leaves, when some of them are
interrupted. A run writes the items of its paragraphs in the order of the folder; so what the stores
hold follows from a log of items, which repeats beginnings of the items of one complete run.

Results:
* `afterSteps_logs`: what a run that got so far has written;
* `folders_converge`: a sequence that ends with a complete run of each stage leaves what one complete
  run leaves, with one paragraph and one point for every stored paragraph of the folder, when the
  files have distinct source ids and every run finds in a paragraph what the others find
  (`Steady`);
* `folders_converge_without_yake`: without dynamic rules, every run finds the same;
* `folders_diverge`: two files can share a source id, and the rules of a later file are there when an
  earlier one is ingested again.
-/

namespace CortexHarness.Docs

open Merges

section Convergence

variable (env : Recogniser) (args : FolderArgs) (folder : List FileDoc)

/-! ## The items of a run -/

/-- What is found in the paragraphs of a file. -/
abbrev Findings := FileDoc → String → List Found × List FoundRelation

variable (found : Findings)

/-- The item that a step adds. -/
def stepItem : FolderStep → Option DocItem
  | .paragraph file slot => some (docItem env args file slot (found file slot.text))
  | _ => none

/-- The items that steps add. -/
def itemsOf (steps : List FolderStep) : List DocItem := steps.filterMap (stepItem env args found)

/-- The items of a complete run. -/
def allItems : List DocItem := itemsOf env args found (allSteps args folder)

/-- The run finds `found` in every paragraph that it gets to, with the patterns that are loaded
there. -/
def Steady (run : FolderRun) (w : World) : Prop :=
  ∀ done file slot, done ++ [.paragraph file slot] <+: run.steps args folder → slot.short = false →
    env.extract (afterSteps env args folder run w done).1.patterns slot.text = found file slot.text

/-- The stores after the items of a log, from empty ones. -/
structure Logs (w : World) (graphLog pointLog : List DocItem) : Prop where
  paragraphs : w.graph.paragraphs = merge ParagraphRow.key (setParagraph args.scope)
    (graphLog.filterMap DocItem.paragraphRow) fun _ => none
  entities : w.graph.entities = merge (fun row => row.node.id) (setEntity args.scope)
    (graphLog.flatMap DocItem.entityRows) fun _ => none
  hasEntity : w.graph.hasEntity = merge (fun row => (row.key, row.node.id))
    (setHasEntity args.scope) (graphLog.flatMap DocItem.entityRows) fun _ => none
  points : w.points = merge (itemPointId env args) (fun item _ => docPoint args item) pointLog
    fun _ => none

variable {env args folder found} {run : FolderRun} {w : World} {graphLog pointLog : List DocItem}

theorem itemsOf_append (steps steps' : List FolderStep) : itemsOf env args found (steps ++ steps') =
    itemsOf env args found steps ++ itemsOf env args found steps' := List.filterMap_append

theorem text_of_mem {steps : List FolderStep} {item : DocItem}
    (h : item ∈ itemsOf env args found steps) :
    item.paragraphText.isSome ∧ item.paragraphProps = none := by
  obtain ⟨step, -, hstep⟩ := List.mem_filterMap.mp h
  cases step with
  | paragraph file slot =>
    obtain rfl := Option.some.inj hstep
    exact ⟨rfl, rfl⟩
  | _ => cases hstep

theorem ingest_hasEntity_all {scope : Scope} {g : DocGraph} {items : List DocItem}
    (h : ∀ item ∈ items, item.paragraphText.isSome) :
    (ingestToGraphBatch scope items g).hasEntity = merge (fun row => (row.key, row.node.id))
      (setHasEntity scope) (items.flatMap DocItem.entityRows) g.hasEntity := by
  have hall : ((items.flatMap DocItem.entityRows).filter fun row =>
      ((ingestToGraphBatch scope items g).paragraphs row.key).isSome &&
        ((ingestToGraphBatch scope items g).entities row.node.id).isSome) =
      items.flatMap DocItem.entityRows := by
    rw [List.filter_eq_self]
    intro row hrow
    obtain ⟨item, hitem, hin⟩ := List.mem_flatMap.mp hrow
    obtain ⟨node, -, rfl⟩ := List.mem_map.mp hin
    obtain ⟨p, hp, -⟩ := @ingest_paragraph items scope g item.key ⟨item, hitem, h item hitem, rfl⟩
    obtain ⟨e, he, -⟩ := @ingest_entity items scope g node.id
      (writesEntity_iff.mpr ⟨_, hrow, rfl⟩)
    simp only [hp, he, Option.isSome_some, Bool.and_true]
  exact congrArg (fun rows => merge (fun row : EntityRow => (row.key, row.node.id))
    (setHasEntity scope) rows g.hasEntity) hall

theorem Logs.empty : Logs env args .empty [] [] := ⟨rfl, rfl, rfl, rfl⟩

theorem Logs.rules (h : Logs env args w graphLog pointLog) (rules : List RuleFile) :
    Logs env args { w with rules } graphLog pointLog :=
  ⟨h.paragraphs, h.entities, h.hasEntity, h.points⟩

theorem Logs.ingest (h : Logs env args w graphLog pointLog) {items : List DocItem}
    (hitems : ∀ item ∈ items, item.paragraphText.isSome) :
    Logs env args { w with graph := ingestToGraphBatch args.scope items w.graph }
      (graphLog ++ items) pointLog where
  paragraphs := by
    rw [List.filterMap_append, merge_append, ← h.paragraphs]
    rfl
  entities := by
    rw [List.flatMap_append, merge_append, ← h.entities]
    rfl
  hasEntity := by
    rw [List.flatMap_append, merge_append, ← h.hasEntity]
    exact ingest_hasEntity_all hitems
  points := h.points

theorem Logs.upsert (h : Logs env args w graphLog pointLog) (item : DocItem) :
    Logs env args { w with
      points := Function.update w.points (itemPointId env args item) (some (docPoint args item)) }
      graphLog (pointLog ++ [item]) where
  paragraphs := h.paragraphs
  entities := h.entities
  hasEntity := h.hasEntity
  points := by
    rw [merge_concat, ← h.points]

/-! ## One run -/

theorem afterSteps_concat (steps : List FolderStep) (step : FolderStep) :
    afterSteps env args folder run w (steps ++ [step]) =
      runStep env args folder run (afterSteps env args folder run w steps) step := by
  rw [afterSteps, List.foldl_append]
  rfl

theorem flush_logs (stage : Stage) {s : Session × World} {flushed : List DocItem}
    (h : Logs env args s.2 (graphLog ++ if stage.writesGraph then flushed else []) pointLog)
    (hbatch : ∀ item ∈ s.1.batch, item.paragraphText.isSome) :
    Logs env args (flushGraphBatch args stage s).2
      (graphLog ++ if stage.writesGraph then flushed ++ s.1.batch else []) pointLog := by
  unfold flushGraphBatch
  by_cases hstage : stage.writesGraph = true
  · rw [if_pos hstage] at h ⊢
    by_cases hempty : s.1.batch = []
    · simpa [hempty] using h
    · rw [if_pos (by simp [hempty, hstage]), ← List.append_assoc]
      exact h.ingest hbatch
  · rw [if_neg hstage] at h ⊢
    rw [if_neg (by simp [hstage])]
    exact h

theorem storeItem_logs {s : Session × World} {flushed : List DocItem} (item : DocItem)
    (h : Logs env args s.2 (graphLog ++ if run.stage.writesGraph then flushed else [])
      pointLog)
    (hbatch : ∀ item ∈ s.1.batch, item.paragraphText.isSome) (hitem : item.paragraphText.isSome) :
    ∃ flushed', Logs env args (storeItem env args run item s).2
        (graphLog ++ if run.stage.writesGraph then flushed' else [])
        (pointLog ++ if run.stage.writesPoints then [item] else []) ∧
      flushed' ++ (storeItem env args run item s).1.batch = flushed ++ s.1.batch ++ [item] := by
  have hadded : ∀ x ∈ s.1.batch ++ [item], x.paragraphText.isSome := by
    intro x hx
    rcases List.mem_append.mp hx with hx | hx
    · exact hbatch x hx
    · exact List.mem_singleton.mp hx ▸ hitem
  unfold storeItem
  simp only
  by_cases hfull : run.graphBatchSize ≤ (s.1.batch ++ [item]).length
  · rw [if_pos hfull]
    have hflush := flush_logs run.stage
      (s := ({ s.1 with batch := s.1.batch ++ [item] }, s.2)) h hadded
    refine ⟨flushed ++ (s.1.batch ++ [item]), ?_, by split <;> simp [flushGraphBatch]⟩
    split
    · exact hflush.upsert item
    · rw [List.append_nil]
      exact hflush
  · rw [if_neg hfull]
    refine ⟨flushed, ?_, by split <;> simp⟩
    split
    · exact h.upsert item
    · rw [List.append_nil]
      exact h

theorem runStep_rules {s : Session × World} {step : FolderStep}
    (hstep : step = .prune ∨ (∃ file, step = .rules file) ∨ ∃ file, step = .start file) :
    (runStep env args folder run s step).1.batch = s.1.batch ∧
      ∃ rules, (runStep env args folder run s step).2 = { s.2 with rules } := by
  rcases hstep with rfl | ⟨file, rfl⟩ | ⟨file, rfl⟩
  · refine ⟨rfl, ?_⟩
    simp only [runStep, pruneRules]
    split
    · exact ⟨_, rfl⟩
    · exact ⟨_, rfl⟩
  · simp only [runStep, refreshRules]
    split
    · split
      · split <;> exact ⟨rfl, _, rfl⟩
      · exact ⟨rfl, _, rfl⟩
    · exact ⟨rfl, _, rfl⟩
  · refine ⟨?_, _, rfl⟩
    simp only [runStep, getRulerNlp]
    split <;> rfl

/-- **What a run that got so far has written.** -/
theorem afterSteps_logs (hsteady : Steady env args folder found run w)
    (h : Logs env args w graphLog pointLog) {done : List FolderStep}
    (hdone : done <+: run.steps args folder) :
    ∃ flushed, Logs env args (afterSteps env args folder run w done).2
        (graphLog ++ if run.stage.writesGraph then flushed else [])
        (pointLog ++ if run.stage.writesPoints then itemsOf env args found done else []) ∧
      flushed ++ (afterSteps env args folder run w done).1.batch =
        itemsOf env args found done := by
  induction done using List.reverseRecOn with
  | nil =>
    refine ⟨[], ?_, rfl⟩
    simpa [itemsOf, afterSteps] using h
  | append_singleton done step ih =>
    obtain ⟨flushed, hlogs, hitems⟩ := ih ((List.prefix_append _ _).trans hdone)
    have hbatch : ∀ item ∈ (afterSteps env args folder run w done).1.batch,
        item.paragraphText.isSome := fun item hitem =>
      (text_of_mem (hitems ▸ List.mem_append_right flushed hitem)).1
    rw [afterSteps_concat, itemsOf_append]
    have hother : (step = .prune ∨ (∃ file, step = .rules file) ∨ ∃ file, step = .start file) →
        ∃ flushed, Logs env args
            (runStep env args folder run (afterSteps env args folder run w done) step).2
            (graphLog ++ if run.stage.writesGraph then flushed else [])
            (pointLog ++ if run.stage.writesPoints
              then itemsOf env args found done ++ itemsOf env args found [step] else []) ∧
          flushed ++ (runStep env args folder run (afterSteps env args folder run w done)
              step).1.batch =
            itemsOf env args found done ++ itemsOf env args found [step] := by
      intro hstep
      have hnone : itemsOf env args found [step] = [] := by
        rcases hstep with rfl | ⟨file, rfl⟩ | ⟨file, rfl⟩ <;> rfl
      obtain ⟨hsame, rules, hworld⟩ := runStep_rules hstep
      rw [hnone, List.append_nil, hworld, hsame]
      exact ⟨flushed, hlogs.rules rules, hitems⟩
    cases step with
    | paragraph file slot =>
      -- the item of the step is the one that is expected
      have hfound : docItem env args file slot (env.extract
          (afterSteps env args folder run w done).1.patterns slot.text) =
          docItem env args file slot (found file slot.text) := by
        by_cases hshort : slot.short = true
        · simp [docItem, hshort]
        · rw [hsteady done file slot hdone (by simpa using hshort)]
      obtain ⟨flushed', hlogs', hitems'⟩ := storeItem_logs
        (docItem env args file slot (found file slot.text)) hlogs hbatch rfl
      refine ⟨flushed', ?_, ?_⟩
      · rw [runStep, hfound]
        convert hlogs' using 1
        by_cases hpoints : run.stage.writesPoints = true
        · simp [hpoints, itemsOf, stepItem]
        · simp [hpoints]
      · rw [runStep, hfound, hitems', hitems]
        rfl
    | finish =>
      refine ⟨flushed ++ (afterSteps env args folder run w done).1.batch, ?_, ?_⟩
      · have hitem : itemsOf env args found [.finish] = [] := rfl
        rw [hitem, List.append_nil]
        exact flush_logs run.stage hlogs hbatch
      · rw [hitems]
        rfl
    | prune => exact hother (.inl rfl)
    | rules file => exact hother (.inr (.inl ⟨file, rfl⟩))
    | start file => exact hother (.inr (.inr ⟨file, rfl⟩))

theorem batch_complete : (afterSteps env args folder run w (allSteps args folder)).1.batch = [] := by
  have hfile : ∀ (file : FileDoc) (s : Session × World), s.1.batch = [] →
      ((fileSteps args file).foldl (runStep env args folder run) s).1.batch = [] := by
    intro file s hs
    have hrules : ((if file.isXlsx then [] else [FolderStep.rules file]).foldl
        (runStep env args folder run) s).1.batch = [] := by
      split
      · exact hs
      · have hkept : (runStep env args folder run s (.rules file)).1.batch = s.1.batch :=
          (runStep_rules (.inr (.inl ⟨file, rfl⟩))).1
        exact hkept.trans hs
    rw [fileSteps, List.foldl_append]
    by_cases hempty : file.text = ""
    · rw [if_pos hempty]
      exact hrules
    · rw [if_neg hempty, List.foldl_cons, List.foldl_append]
      rfl
  have hfiles : ∀ (files : List FileDoc) (s : Session × World), s.1.batch = [] →
      ((files.flatMap (fileSteps args)).foldl (runStep env args folder run) s).1.batch = [] := by
    intro files
    induction files with
    | nil => exact fun _ h => h
    | cons file files ih =>
      intro s hs
      rw [List.flatMap_cons, List.foldl_append]
      exact ih _ (hfile file s hs)
  exact hfiles folder _ rfl

theorem FolderRun.steps_prefix : run.steps args folder <+: allSteps args folder := by
  unfold FolderRun.steps
  split
  · exact List.prefix_refl _
  · exact List.take_prefix _ _

theorem runFolder_logs (hsteady : Steady env args folder found run w)
    (h : Logs env args w graphLog pointLog) :
    ∃ graphItems pointItems, Logs env args (runFolder env args folder run w)
        (graphLog ++ if run.stage.writesGraph then graphItems else [])
        (pointLog ++ if run.stage.writesPoints then pointItems else []) ∧
      graphItems <+: allItems env args folder found ∧ pointItems <+: allItems env args folder found ∧
      (run.cut = none → graphItems = allItems env args folder found ∧
        pointItems = allItems env args folder found) := by
  obtain ⟨flushed, hlogs, hitems⟩ := afterSteps_logs hsteady h (List.prefix_refl _)
  have hall : itemsOf env args found (run.steps args folder) <+: allItems env args folder found :=
    List.IsPrefix.filterMap _ FolderRun.steps_prefix
  refine ⟨flushed, _, hlogs, (List.prefix_append _ _).trans (hitems ▸ hall), hall, fun hcut => ?_⟩
  have hsteps : run.steps args folder = allSteps args folder := by rw [FolderRun.steps, hcut]
  rw [hsteps, batch_complete, List.append_nil] at hitems
  exact ⟨hitems, by rw [hsteps, allItems]⟩

/-! ## Sequences of runs -/

variable (env args folder found) in
/-- Every run of the sequence is steady where it starts. -/
def AllSteady (runs : List FolderRun) : Prop :=
  ∀ earlier run, earlier ++ [run] <+: runs →
    Steady env args folder found run (runFolders env args folder earlier)

/-- The last run that writes to a store is complete. -/
def EndsComplete (writes : Stage → Bool) (runs : List FolderRun) : Prop :=
  ∃ run, (runs.filter fun run => writes run.stage).getLast? = some run ∧ run.cut = none

variable {runs : List FolderRun}

theorem runFolders_concat : runFolders env args folder (runs ++ [run]) =
    runFolder env args folder run (runFolders env args folder runs) := by
  rw [runFolders, List.foldl_append]
  rfl

theorem replay_run {whole log part : List DocItem} (hlog : Replay whole log)
    (writes : Stage → Bool) (hpart : part <+: whole)
    (hcomplete : run.cut = none → part = whole)
    (hends : EndsComplete writes runs → ∃ before, Replay whole before ∧ log = before ++ whole) :
    Replay whole (log ++ if writes run.stage then part else []) ∧
      (EndsComplete writes (runs ++ [run]) → ∃ before, Replay whole before ∧
        (log ++ if writes run.stage then part else []) = before ++ whole) := by
  by_cases hstage : writes run.stage = true
  · rw [if_pos hstage]
    refine ⟨hlog.append hpart, ?_⟩
    rintro ⟨last, hlast, hcut⟩
    rw [List.filter_append, List.filter_singleton, hstage, Bool.cond_true,
      List.getLast?_concat] at hlast
    obtain rfl := Option.some.inj hlast
    exact ⟨log, hlog, by rw [hcomplete hcut]⟩
  · rw [if_neg hstage, List.append_nil]
    refine ⟨hlog, ?_⟩
    rintro ⟨last, hlast, hcut⟩
    rw [List.filter_append, List.filter_singleton, Bool.eq_false_iff.mpr hstage, Bool.cond_false,
      List.append_nil] at hlast
    exact hends ⟨last, hlast, hcut⟩

/-- **What a sequence of runs has written**: beginnings of the items of a complete run, and all of them
at the end when the last run of the stage was complete. -/
theorem runFolders_logs (hsteady : AllSteady env args folder found runs) :
    ∃ graphLog pointLog, Logs env args (runFolders env args folder runs) graphLog pointLog ∧
      (Replay (allItems env args folder found) graphLog ∧
        (EndsComplete Stage.writesGraph runs → ∃ before,
          Replay (allItems env args folder found) before ∧
            graphLog = before ++ allItems env args folder found)) ∧
      (Replay (allItems env args folder found) pointLog ∧
        (EndsComplete Stage.writesPoints runs → ∃ before,
          Replay (allItems env args folder found) before ∧
            pointLog = before ++ allItems env args folder found)) := by
  induction runs using List.reverseRecOn with
  | nil =>
    have hnone : ∀ writes, ¬ EndsComplete writes [] := fun _ ⟨_, h, _⟩ => nomatch h
    exact ⟨[], [], Logs.empty, ⟨Replay.nil, fun h => absurd h (hnone _)⟩,
      ⟨Replay.nil, fun h => absurd h (hnone _)⟩⟩
  | append_singleton runs run ih =>
    obtain ⟨graphLog, pointLog, hlogs, ⟨hgraph, hgraphEnds⟩, hpoints, hpointsEnds⟩ :=
      ih fun earlier run' h => hsteady earlier run' (h.trans (List.prefix_append _ _))
    obtain ⟨graphItems, pointItems, hlogs', hgraphPart, hpointPart, hcomplete⟩ :=
      runFolder_logs (hsteady runs run (List.prefix_refl _)) hlogs
    rw [runFolders_concat]
    exact ⟨_, _, hlogs',
      replay_run hgraph Stage.writesGraph hgraphPart (fun h => (hcomplete h).1) hgraphEnds,
      replay_run hpoints Stage.writesPoints hpointPart (fun h => (hcomplete h).2) hpointsEnds⟩

/-! ## What a sequence leaves -/

/-- A `SET` of a paragraph without `paragraph_props`. -/
def setPlainParagraph (scope : Scope) (row : ParagraphRow) (old : Option ParagraphNode) :
    ParagraphNode where
  text := row.text
  short := row.isShort
  scope := scope
  props := old.elim none ParagraphNode.props

def plainParagraphCoalescing (scope : Scope) :
    Coalescing (setPlainParagraph scope) (Option RowProps) ParagraphRow where
  build props row := { text := row.text, short := row.isShort, scope, props }
  firstOf := ParagraphNode.props
  first _ := none
  rest row := row
  firstOf_build _ _ := rfl
  set_eq _ _ := rfl

def entityCoalescing (scope : Scope) : Coalescing (setEntity scope) String EntityRow where
  build name row := { name, type := row.node.type, nameNorm := row.node.nameNorm, scope }
  firstOf := EntityNode.name
  first row := row.node.name
  rest row := row
  firstOf_build _ _ := rfl
  set_eq _ _ := rfl

theorem merge_plain {log : List DocItem} (hlog : ∀ item ∈ log, item.paragraphProps = none)
    (s : ParagraphKey → Option ParagraphNode) :
    merge ParagraphRow.key (setParagraph args.scope) (log.filterMap DocItem.paragraphRow) s =
      merge ParagraphRow.key (setPlainParagraph args.scope) (log.filterMap DocItem.paragraphRow)
        s := by
  refine merge_congr fun row hrow => funext fun old => ?_
  obtain ⟨item, hitem, hrow⟩ := List.mem_filterMap.mp hrow
  obtain ⟨text, -, rfl⟩ := Option.map_eq_some_iff.mp hrow
  cases old <;> simp [setParagraph, setPlainParagraph, hlog item hitem]

/-- **A log that repeats beginnings before the items of a complete run is as good as these.** -/
theorem Logs.complete {before before' : List DocItem}
    (hgraph : Replay (allItems env args folder found) before)
    (hpoints : Replay (allItems env args folder found) before')
    (h : Logs env args w (before ++ allItems env args folder found)
      (before' ++ allItems env args folder found)) :
    Logs env args w (allItems env args folder found) (allItems env args folder found) where
  paragraphs := by
    have hall : ∀ item ∈ allItems env args folder found, item.paragraphProps = none :=
      fun item hitem => (text_of_mem hitem).2
    have hlog : ∀ item ∈ before ++ allItems env args folder found, item.paragraphProps = none := by
      intro item hitem
      rcases List.mem_append.mp hitem with hitem | hitem
      · exact hall item (hgraph.mem hitem)
      · exact hall item hitem
    rw [h.paragraphs, merge_plain hlog, merge_plain hall, List.filterMap_append]
    exact merge_replay (plainParagraphCoalescing args.scope) (hgraph.filterMap _)
  entities := by
    rw [h.entities, List.flatMap_append]
    exact merge_replay (entityCoalescing args.scope) (hgraph.flatMap _)
  hasEntity := by
    rw [h.hasEntity, List.flatMap_append]
    exact merge_replay (.overwrite fun row => setHasEntity args.scope row none) (hgraph.flatMap _)
  points := by
    rw [h.points]
    exact merge_replay (.overwrite (docPoint args)) hpoints

/-! ### One paragraph and one point -/

variable (args folder) in
/-- The paragraphs of the folder that are stored. -/
def folderSlots : List (FileDoc × Slot) :=
  folder.flatMap fun file => (slotsOf args file.text).map fun slot => (file, slot)

variable (args) in
def slotKey (p : FileDoc × Slot) : ParagraphKey :=
  { sourceId := sourceIdOf args p.1, paragraphId := p.2.index }

variable (env args) in
def slotPointId (p : FileDoc × Slot) : String :=
  pointId env.texts args.scope.projectIdNormalized (sourceIdOf args p.1) p.2.index

variable (env args folder) in
/-- `uuid5` tells the keys of the folder's points apart. -/
def PointIdsApart : Prop :=
  ∀ p ∈ folderSlots args folder, ∀ p' ∈ folderSlots args folder,
    slotPointId env args p = slotPointId env args p' →
      pointKey args.scope.projectIdNormalized (sourceIdOf args p.1) p.2.index =
        pointKey args.scope.projectIdNormalized (sourceIdOf args p'.1) p'.2.index

variable (env args folder) in
/-- The store of paragraphs and that of points have exactly one element for every stored paragraph of
the folder, with its text. -/
structure OnePerSlot (w : World) : Prop where
  paragraphKeys : ((folderSlots args folder).map (slotKey args)).Nodup
  paragraph : ∀ p ∈ folderSlots args folder, ∃ node,
    w.graph.paragraphs (slotKey args p) = some node ∧ node.text = p.2.text
  paragraphOnly : ∀ key, (w.graph.paragraphs key).isSome →
    ∃ p ∈ folderSlots args folder, slotKey args p = key
  pointIds : ((folderSlots args folder).map (slotPointId env args)).Nodup
  point : ∀ p ∈ folderSlots args folder, ∃ payload,
    w.points (slotPointId env args p) = some payload ∧ payload.sourceId = sourceIdOf args p.1 ∧
      payload.paragraphId = p.2.index ∧ payload.text = p.2.text
  pointOnly : ∀ id, (w.points id).isSome → ∃ p ∈ folderSlots args folder, slotPointId env args p = id

theorem allItems_eq : allItems env args folder found =
    (folderSlots args folder).map fun p => docItem env args p.1 p.2 (found p.1 p.2.text) := by
  have hempty : slotsOf args "" = [] := rfl
  have hfile : ∀ file, itemsOf env args found (fileSteps args file) =
      (slotsOf args file.text).map fun slot =>
        docItem env args file slot (found file slot.text) := by
    intro file
    have hrules : itemsOf env args found (if file.isXlsx then [] else [.rules file]) = [] := by
      split <;> rfl
    rw [fileSteps, itemsOf_append, hrules, List.nil_append]
    by_cases htext : file.text = ""
    · rw [if_pos htext, htext, hempty]
      rfl
    · have hstart : stepItem env args found (.start file) = none := rfl
      have hslots : ∀ slots : List Slot, itemsOf env args found (slots.map (.paragraph file)) =
          slots.map fun slot => docItem env args file slot (found file slot.text) := by
        intro slots
        rw [itemsOf, List.filterMap_map]
        exact congrFun List.filterMap_eq_map slots
      rw [if_neg htext, itemsOf, List.filterMap_cons_none hstart]
      exact (itemsOf_append _ _).trans (by rw [hslots]; exact List.append_nil _)
  have hfiles : ∀ files : List FileDoc, itemsOf env args found (files.flatMap (fileSteps args)) =
      (folderSlots args files).map fun p => docItem env args p.1 p.2 (found p.1 p.2.text) := by
    intro files
    induction files with
    | nil => rfl
    | cons file files ih =>
      rw [List.flatMap_cons, itemsOf_append, hfile, ih, folderSlots, folderSlots, List.flatMap_cons,
        List.map_append, List.map_map]
      rfl
  exact hfiles folder

theorem index_slotsOf (text : String) : ((slotsOf args text).map Slot.index).Nodup := by
  unfold slotsOf
  simp only
  generalize hparagraphs : ((splitParagraphs args.maxParagraphChars text).zipIdx.map fun p =>
    ({ index := p.2, text := p.1, short := decide (p.1.length < args.minParagraphChars) } : Slot)) =
      paragraphs
  have hindex : (paragraphs.map Slot.index).Nodup := by
    rw [← hparagraphs, List.map_map]
    change ((splitParagraphs args.maxParagraphChars text).zipIdx.map Prod.snd).Nodup
    rw [List.zipIdx_map_snd]
    exact List.nodup_range'
  have hnodup := List.Nodup.of_map _ hindex
  refine List.Nodup.map_on ?_ (List.Nodup.append (hnodup.filter _) (hnodup.filter _) ?_)
  · intro a ha b hb he
    have hmem : ∀ x, x ∈ (paragraphs.filter fun slot => slot.short && args.skipLlmShort) ++
        (paragraphs.filter fun slot => !slot.short) → x ∈ paragraphs := by
      intro x hx
      rcases List.mem_append.mp hx with hx | hx
      · exact List.mem_of_mem_filter hx
      · exact List.mem_of_mem_filter hx
    exact List.inj_on_of_nodup_map hindex (hmem a ha) (hmem b hb) he
  · intro a ha hb
    have hshort := (Bool.and_eq_true_iff.mp (List.mem_filter.mp ha).2).1
    have hlong := (List.mem_filter.mp hb).2
    rw [hshort] at hlong
    cases hlong

/-- Distinct source ids give the paragraphs distinct keys. -/
theorem nodup_slotKeys (hsources : (folder.map (sourceIdOf args)).Nodup) :
    ((folderSlots args folder).map (slotKey args)).Nodup := by
  rw [folderSlots, List.map_flatMap, List.nodup_flatMap]
  constructor
  · intro file _
    rw [List.map_map]
    refine List.Nodup.of_map ParagraphKey.paragraphId ?_
    rw [List.map_map]
    exact index_slotsOf file.text
  · refine (List.pairwise_map.mp hsources).imp fun hne => ?_
    intro key hkey hkey'
    obtain ⟨p, hp, rfl⟩ := List.mem_map.mp hkey
    obtain ⟨p', hp', he⟩ := List.mem_map.mp hkey'
    obtain ⟨slot, -, rfl⟩ := List.mem_map.mp hp
    obtain ⟨slot', -, rfl⟩ := List.mem_map.mp hp'
    exact hne (congrArg ParagraphKey.sourceId he).symm

theorem pointKey_injective {project : Option String} {source source' : String} {n n' : Nat}
    (h : pointKey project source n = pointKey project source' n') : source = source' ∧ n = n' := by
  have hdigits : ∀ n : Nat, ':' ∉ (toString n).toList := by
    intro n hcolon
    have hmem : ':' ∈ Nat.toDigits 10 n := by simpa [toString, Nat.repr] using hcolon
    exact absurd (Nat.isDigit_of_mem_toDigits (by decide) (by decide) hmem) (by decide)
  have hsplit : ∀ (source : String) (n : Nat), (pointKey project source n).toList.reverse =
      (toString n).toList.reverse ++ ':' :: (project.getD "" ++ ":" ++ source).toList.reverse := by
    intro source n
    simp [pointKey]
  have hkey := congrArg (fun key : String => key.toList.reverse) h
  simp only [hsplit] at hkey
  have htake : ∀ (a b : List Char), ':' ∉ a → (a ++ ':' :: b).takeWhile (· != ':') = a := by
    intro a b ha
    rw [List.takeWhile_append_of_pos, List.takeWhile_cons_of_neg (by simp), List.append_nil]
    intro c hc
    exact bne_iff_ne.mpr fun he => ha (he ▸ hc)
  have hnumber := congrArg (List.takeWhile (· != ':')) hkey
  rw [htake _ _ (by simpa using hdigits n), htake _ _ (by simpa using hdigits n'),
    List.reverse_inj, String.toList_inj] at hnumber
  have hn : n = n' := by
    have hdigit : Nat.toDigits 10 n = Nat.toDigits 10 n' := by
      simpa [toString, Nat.repr] using congrArg String.toList hnumber
    rw [← @Nat.ofDigitChars_toDigits 10 n (by decide) (by decide), hdigit,
      Nat.ofDigitChars_toDigits (by decide) (by decide)]
  subst hn
  exact ⟨String.toList_inj.mp (by simpa using hkey), rfl⟩

/-- The stores of a complete run have one element for every paragraph. -/
theorem Logs.onePerSlot (hpointIds : PointIdsApart env args folder)
    (hsources : (folder.map (sourceIdOf args)).Nodup)
    (h : Logs env args w (allItems env args folder found) (allItems env args folder found)) :
    OnePerSlot env args folder w := by
  have hkeys := nodup_slotKeys hsources
  have hids : ((folderSlots args folder).map (slotPointId env args)).Nodup := by
    refine List.Nodup.map_on (fun p hp p' hp' he => ?_) (List.Nodup.of_map _ hkeys)
    obtain ⟨hsource, hindex⟩ := pointKey_injective (hpointIds p hp p' hp' he)
    exact List.inj_on_of_nodup_map hkeys hp hp' (congrArg₂ ParagraphKey.mk hsource hindex)
  have hitem : ∀ item ∈ allItems env args folder found, ∃ p ∈ folderSlots args folder,
      item = docItem env args p.1 p.2 (found p.1 p.2.text) := by
    intro item h
    rw [allItems_eq] at h
    obtain ⟨p, hp, rfl⟩ := List.mem_map.mp h
    exact ⟨p, hp, rfl⟩
  have hmem : ∀ p ∈ folderSlots args folder,
      docItem env args p.1 p.2 (found p.1 p.2.text) ∈ allItems env args folder found := by
    intro p hp
    rw [allItems_eq]
    exact List.mem_map_of_mem hp
  have hrow : ∀ row ∈ (allItems env args folder found).filterMap DocItem.paragraphRow,
      ∃ p ∈ folderSlots args folder, row.key = slotKey args p ∧ row.text = p.2.text := by
    intro row hrow
    obtain ⟨item, hin, hsome⟩ := List.mem_filterMap.mp hrow
    obtain ⟨p, hp, rfl⟩ := hitem item hin
    obtain rfl := Option.some.inj hsome
    exact ⟨p, hp, rfl, rfl⟩
  constructor
  · exact hkeys
  · intro p hp
    rw [h.paragraphs]
    refine merge_written (fun row hin he _ => ?_)
      ⟨_, List.mem_filterMap.mpr ⟨_, hmem p hp, rfl⟩, rfl⟩
    obtain ⟨p', hp', hkey, htext⟩ := hrow row hin
    obtain rfl := List.inj_on_of_nodup_map hkeys hp' hp (hkey.symm.trans he)
    exact htext
  · intro key hsome
    rw [h.paragraphs] at hsome
    obtain ⟨row, hin, rfl⟩ := (isSome_merge.mp hsome).resolve_left (by simp)
    obtain ⟨p, hp, hkey, -⟩ := hrow row hin
    exact ⟨p, hp, hkey.symm⟩
  · exact hids
  · intro p hp
    rw [h.points]
    refine merge_written (fun item hin he _ => ?_) ⟨_, hmem p hp, rfl⟩
    obtain ⟨p', hp', rfl⟩ := hitem item hin
    obtain rfl := List.inj_on_of_nodup_map hids hp' hp he
    exact ⟨rfl, rfl, rfl⟩
  · intro id hsome
    rw [h.points] at hsome
    obtain ⟨item, hin, rfl⟩ := (isSome_merge.mp hsome).resolve_left (by simp)
    obtain ⟨p, hp, rfl⟩ := hitem item hin
    exact ⟨p, hp, rfl⟩

/-- The stores hold the same paragraphs, entities, `HAS_ENTITY` relationships and points. -/
structure SameStores (w w' : World) : Prop where
  paragraphs : w.graph.paragraphs = w'.graph.paragraphs
  entities : w.graph.entities = w'.graph.entities
  hasEntity : w.graph.hasEntity = w'.graph.hasEntity
  points : w.points = w'.points

theorem Logs.same {w' : World} (h : Logs env args w graphLog pointLog)
    (h' : Logs env args w' graphLog pointLog) : SameStores w w' where
  paragraphs := h.paragraphs.trans h'.paragraphs.symm
  entities := h.entities.trans h'.entities.symm
  hasEntity := h.hasEntity.trans h'.hasEntity.symm
  points := h.points.trans h'.points.symm

theorem complete_logs (hsteady : AllSteady env args folder found runs)
    (hgraph : EndsComplete Stage.writesGraph runs)
    (hpoints : EndsComplete Stage.writesPoints runs) :
    Logs env args (runFolders env args folder runs) (allItems env args folder found)
      (allItems env args folder found) := by
  obtain ⟨graphLog, pointLog, hlogs, ⟨-, hgraphEnds⟩, -, hpointsEnds⟩ := runFolders_logs hsteady
  obtain ⟨before, hbefore, rfl⟩ := hgraphEnds hgraph
  obtain ⟨before', hbefore', rfl⟩ := hpointsEnds hpoints
  exact hlogs.complete hbefore hbefore'

/-- An uninterrupted full run. -/
def fullFolderRun (graphBatchSize : Nat) : FolderRun where
  stage := .full
  graphBatchSize := graphBatchSize
  cut := none

/-- **A sequence of runs that ends with a complete run of each stage leaves what one complete run
leaves**, with one paragraph and one point for every stored paragraph of the folder. -/
theorem folders_converge {graphBatchSize : Nat} (hsources : (folder.map (sourceIdOf args)).Nodup)
    (hpointIds : PointIdsApart env args folder)
    (hreference : AllSteady env args folder found [fullFolderRun graphBatchSize])
    (hsteady : AllSteady env args folder found runs)
    (hgraph : EndsComplete Stage.writesGraph runs)
    (hpoints : EndsComplete Stage.writesPoints runs) :
    SameStores (runFolders env args folder runs)
        (runFolders env args folder [fullFolderRun graphBatchSize]) ∧
      OnePerSlot env args folder (runFolders env args folder runs) := by
  have hlogs := complete_logs hsteady hgraph hpoints
  have hfull := complete_logs hreference ⟨_, rfl, rfl⟩ ⟨_, rfl, rfl⟩
  exact ⟨hlogs.same hfull, hlogs.onePerSlot hpointIds hsources⟩

/-! ## Without dynamic rules -/

/-- Every paragraph comes after the start of a file. -/
def Opened (steps : List FolderStep) : Prop :=
  ∀ done file slot, done ++ [.paragraph file slot] <+: steps → ∃ file, .start file ∈ done

theorem Opened.append {steps steps' : List FolderStep} (h : Opened steps) (h' : Opened steps') :
    Opened (steps ++ steps') := by
  intro done file slot hdone
  rcases List.prefix_or_prefix_of_prefix hdone (List.prefix_append steps steps') with hin | hout
  · exact h done file slot hin
  · obtain ⟨rest, hrest⟩ := hout
    induction rest using List.reverseRecOn with
    | nil =>
      rw [List.append_nil] at hrest
      exact h done file slot (hrest ▸ List.prefix_refl _)
    | append_singleton rest last _ =>
      rw [← List.append_assoc] at hrest
      obtain ⟨rfl, hlast⟩ := List.append_inj' hrest rfl
      obtain rfl := List.singleton_inj.mp hlast
      rw [List.append_assoc, List.prefix_append_right_inj] at hdone
      obtain ⟨file, hstart⟩ := h' rest file slot hdone
      exact ⟨file, List.mem_append_right _ hstart⟩

theorem opened_singleton {step : FolderStep} (h : ∀ file slot, step ≠ .paragraph file slot) :
    Opened [step] := by
  intro done file slot hdone
  obtain ⟨rest, hrest⟩ := hdone
  have hmem : FolderStep.paragraph file slot ∈ [step] := hrest ▸ by simp
  exact absurd (List.mem_singleton.mp hmem).symm (h file slot)

theorem opened_allSteps : Opened (allSteps args folder) := by
  have hstart : ∀ (file : FileDoc) (rest : List FolderStep), Opened (.start file :: rest) := by
    intro file rest done file' slot hdone
    cases done with
    | nil =>
      obtain ⟨tail, htail⟩ := hdone
      cases htail
    | cons first done =>
      obtain ⟨tail, htail⟩ := hdone
      cases htail
      exact ⟨file, List.mem_cons_self⟩
  have hfile : ∀ file, Opened (fileSteps args file) := by
    intro file
    unfold fileSteps
    refine Opened.append ?_ ?_
    · split
      · exact fun done _ _ hdone => by simp at hdone
      · exact opened_singleton nofun
    · split
      · exact fun done _ _ hdone => by simp at hdone
      · exact hstart _ _
  have hfiles : ∀ files : List FileDoc, Opened (files.flatMap (fileSteps args)) := by
    intro files
    induction files with
    | nil => exact fun done _ _ hdone => by simp at hdone
    | cons file files ih => exact (hfile file).append ih
  have hprune : Opened [FolderStep.prune] := opened_singleton nofun
  exact hprune.append (hfiles folder)

variable (args) in
/-- The patterns of the `--ruler-json` files, which `gliner` alone uses. -/
def basePatterns : List RulePattern := if args.gliner then args.rulerJson else []

/-- Without dynamic rules, the patterns that are loaded are those of the `--ruler-json` files. -/
theorem patterns_without_yake (hyake : args.yakeRules = false) (done : List FolderStep) :
    let session := (afterSteps env args folder run w done).1
    (session.ready = true → session.patterns = basePatterns args) ∧
      ((∃ file, .start file ∈ done) → session.ready = true) := by
  induction done using List.reverseRecOn with
  | nil => exact ⟨nofun, fun ⟨_, h⟩ => (List.not_mem_nil h).elim⟩
  | append_singleton done step ih =>
    obtain ⟨hpatterns, hready⟩ := ih
    rw [afterSteps_concat]
    have hkeep : (∀ file, step ≠ .start file) →
        (runStep env args folder run (afterSteps env args folder run w done) step).1.ready =
            (afterSteps env args folder run w done).1.ready ∧
          (runStep env args folder run (afterSteps env args folder run w done) step).1.patterns =
            (afterSteps env args folder run w done).1.patterns := by
      intro hstep
      cases step with
      | start file => exact absurd rfl (hstep file)
      | rules file =>
        rw [runStep, refreshRules, if_neg (by rw [hyake]; exact Bool.false_ne_true)]
        exact ⟨rfl, rfl⟩
      | paragraph file slot =>
        simp only [runStep, storeItem]
        split <;> split <;> exact ⟨rfl, rfl⟩
      | _ => exact ⟨rfl, rfl⟩
    by_cases hstart : ∃ file, step = .start file
    · obtain ⟨file, rfl⟩ := hstart
      simp only [runStep, getRulerNlp]
      split
      · next hdone => exact ⟨hpatterns, fun _ => hdone⟩
      · refine ⟨fun _ => ?_, fun _ => rfl⟩
        simp only [Session.patterns, basePatterns, hyake, Bool.false_eq_true, if_false,
          List.append_nil]
        generalize (if args.gliner = true then args.rulerJson else []) = patterns
        cases patterns <;> rfl
    · obtain ⟨hsame, hsame'⟩ := hkeep fun file he => hstart ⟨file, he⟩
      simp only [hsame, hsame']
      refine ⟨hpatterns, fun ⟨file, hfile⟩ => hready ?_⟩
      rcases List.mem_append.mp hfile with hfile | hfile
      · exact ⟨file, hfile⟩
      · exact absurd ⟨file, (List.mem_singleton.mp hfile).symm⟩ hstart

theorem steady_without_yake (hyake : args.yakeRules = false) :
    AllSteady env args folder (fun _ text => env.extract (basePatterns args) text) runs := by
  intro earlier run _ done file slot hdone _
  obtain ⟨hpatterns, hready⟩ := @patterns_without_yake env args folder run
    (runFolders env args folder earlier) hyake done
  rw [hpatterns (hready (opened_allSteps done file slot (hdone.trans FolderRun.steps_prefix)))]

end Convergence

/-! ## Two folders -/

section Sample

/-- The identifiers and the entities of the samples; `LEDGER` and `GATEWAY` are found where a pattern
of theirs is loaded. -/
def sampleRecogniser : Recogniser where
  texts := {
    lower := fun text => String.ofList (text.toList.map Char.toLower)
    uuid5 := fun key =>
      if key = "shop::KEYWORD::gateway" then "44394fc0-8ec1-5252-b676-748a85fc7b64"
      else if key = "shop::KEYWORD::ledger" then "69ce161a-8ff6-59b7-9e71-ca3dbd762496"
      else if key = "shop:a.md:0" then "a4fcf802-916a-5170-95a9-cf59143ead32"
      else if key = "shop:b.md:0" then "e1f4585d-1026-5c0b-9c1d-e855b7457a3b"
      else "d5e71470-8665-5014-8a1e-4495180979da" }
  keywords := fun text =>
    if text = "Gateway to the Ledger." then [⟨"KEYWORD", "Gateway"⟩]
    else if text = "Ledger." then [⟨"KEYWORD", "Ledger"⟩]
    else []
  extract := fun loaded text =>
    let found : List Found :=
      if text = "Gateway to the Ledger." then
        [⟨"Gateway", "KEYWORD", some 0, some 7, some 1⟩, ⟨"Ledger", "KEYWORD", some 15, some 21, some 1⟩]
      else if text = "Ledger." then [⟨"Ledger", "KEYWORD", some 0, some 6, some 1⟩]
      else []
    (found.filter fun entity => loaded.contains ⟨"KEYWORD", entity.name⟩, [])

/-- `--min-paragraph-chars 1`, and one keyword of a file (`--yake-top 1`) when rules are made. -/
def sampleArgs (yakeRules : Bool) : FolderArgs where
  scope := .of "shop" "shop"
  sourceId := ""
  yakeRules := yakeRules
  gliner := true
  rulerJson := []
  normalizeMode := .aggressive
  maxParagraphChars := 1200
  minParagraphChars := 1
  skipLlmShort := false

def clashingFolder : List FileDoc :=
  [⟨"a/b.md", false, "Gateway to the Ledger."⟩, ⟨"a__b.md", false, "Ledger."⟩]

def sampleFolder : List FileDoc :=
  [⟨"a.md", false, "Gateway to the Ledger."⟩, ⟨"b.md", false, "Ledger."⟩]

/-- **Two files can share a source id, and the rules of a later file are there when an earlier one is
ingested again.** -/
theorem folders_diverge :
    ¬ OnePerSlot sampleRecogniser (sampleArgs false) clashingFolder
        (runFolders sampleRecogniser (sampleArgs false) clashingFolder [fullFolderRun 1]) ∧
      ¬ SameStores
        (runFolders sampleRecogniser (sampleArgs true) sampleFolder [fullFolderRun 1, fullFolderRun 1])
        (runFolders sampleRecogniser (sampleArgs true) sampleFolder [fullFolderRun 1]) := by
  refine ⟨fun h => ?_, fun h => ?_⟩
  · exact absurd h.paragraphKeys (by decide +kernel)
  · have hledger : ((runFolders sampleRecogniser (sampleArgs true) sampleFolder
        [fullFolderRun 1]).graph.hasEntity
          (⟨"a.md", 0⟩, "69ce161a-8ff6-59b7-9e71-ca3dbd762496")).isSome = false := by decide +kernel
    have hagain : ((runFolders sampleRecogniser (sampleArgs true) sampleFolder
        [fullFolderRun 1, fullFolderRun 1]).graph.hasEntity
          (⟨"a.md", 0⟩, "69ce161a-8ff6-59b7-9e71-ca3dbd762496")).isSome = true := by decide +kernel
    rw [h.hasEntity, hledger] at hagain
    cases hagain

/-- An interrupted graph stage, a vector stage, and a graph stage. -/
theorem stages_converge :
    SameStores
        (runFolders sampleRecogniser (sampleArgs false) sampleFolder
          [⟨.graphOnly, 50, some 3⟩, ⟨.vectorOnly, 1, none⟩, ⟨.graphOnly, 50, none⟩])
        (runFolders sampleRecogniser (sampleArgs false) sampleFolder [fullFolderRun 1]) ∧
      OnePerSlot sampleRecogniser (sampleArgs false) sampleFolder
        (runFolders sampleRecogniser (sampleArgs false) sampleFolder
          [⟨.graphOnly, 50, some 3⟩, ⟨.vectorOnly, 1, none⟩, ⟨.graphOnly, 50, none⟩]) :=
  folders_converge (by decide +kernel) (by unfold PointIdsApart; decide +kernel) (steady_without_yake rfl)
    (steady_without_yake rfl) ⟨_, rfl, rfl⟩ ⟨_, rfl, rfl⟩

end Sample

end CortexHarness.Docs
