import CortexHarness.Library.Best
import CortexHarness.Library.Laminar
import CortexHarness.Vb6.Registry

/-!
# Members inside VB6 `With` blocks

Model of `resolve_with_targets` (`vb6_resolver.py:494-559`) and of what it looks up: the designer
controls and parameter types of `VB6ModuleRegistry`, `type_node_id`, `find_typed_variable` and
`_classify_receiver_type`.

* `AnchorPayload` adds to a payload what this pass reads of it. A missing text is empty and a
  missing line is `0`, as the source reads them; `pathText` is `str(file_def.get("file_path"))`.
* A dict that is written key by key is the list of its writes; `lastOf` is a lookup in it.

Results: `attached_iff`: of properly nested blocks, a row gets the kind and the id of the innermost
block around it exactly when the longest block that starts on that block's line is classified as it
is; `attached_of_alone`: so it does when no other block around it starts there.
-/

namespace CortexHarness.Vb6

open Table Laminar
open Sync (basename extension)

variable (text : Text)

/-! ## What the pass reads -/

/-- A row of a payload's `with_targets`. -/
structure WithTarget where
  module : String
  proc : String
  exprRaw : String
  isNew : Bool
  line : Int
  blockEndLine : Int
  targetKind : String
  targetId : String
  deriving DecidableEq

/-- A row of a payload's `ui_access`, and what the pass attaches to it. -/
structure UiRow where
  viaWith : Bool
  member : String
  proc : String
  line : Int
  withTargetKind : Option String
  withTargetId : Option String
  deriving DecidableEq

/-- A row of a payload's `controls`. -/
structure ControlRow where
  name : String
  type : String

/-- The parameters of a procedure: its name, their names and their types. -/
structure ParamsRow where
  name : String
  paramNames : List String
  paramTypes : List String

structure AnchorPayload extends Payload where
  /-- `parse_meta.module_name` -/
  metaModule : String
  pathText : String
  controls : List ControlRow
  params : List ParamsRow
  withTargets : List WithTarget
  uiAccess : List UiRow

/-! ## The tables -/

/-- `dict.get(key)` of a dict given by its writes: the last one counts. -/
def lastOf {κ β : Type} [DecidableEq κ] (writes : List (κ × β)) (key : κ) : Option β :=
  (lookup Prod.fst key writes.reverse).map Prod.snd

structure AnchorRegistry extends Registry where
  /-- the name and the file of every module -/
  moduleFiles : List (String × String × String)
  /-- the writes to `control_by_module[module][control]` -/
  controlByModule : List ((String × String) × String)
  /-- the writes to `param_types_by_proc[module, proc]` -/
  paramTypesByProc : List ((String × String) × List (String × String))

/-- `_PSEUDO_CONTROL_TYPES` -/
def pseudoControlTypes : List String := ["form", "mdiform", "usercontrol"]

/-- `type.rsplit(".", 1)[-1]` -/
def afterLastDot (type : String) : String :=
  String.ofList (type.toList.reverse.takeWhile (· ≠ '.')).reverse

/-- The controls of one payload. -/
def AnchorPayload.controlWrites (p : AnchorPayload) : List ((String × String) × String) :=
  (p.controls.filter fun control => control.name ≠ "" &&
      !pseudoControlTypes.contains (text.lower (afterLastDot control.type))).map
    fun control => ((text.norm p.moduleName, text.norm (strip control.name)),
      p.moduleName ++ "." ++ strip control.name ++ "@control")

/-- The parameter types of one payload: those of the procedures that have any. -/
def AnchorPayload.paramWrites (p : AnchorPayload) :
    List ((String × String) × List (String × String)) :=
  (p.params.map fun fn => ((text.norm p.moduleName, text.norm fn.name),
      ((fn.paramNames.zip fn.paramTypes).filter fun nt => nt.1 ≠ "" && nt.2 ≠ "").map
        fun nt => (text.lower nt.1, nt.2))).filter fun write => write.2 ≠ []

/-- `VB6ModuleRegistry.from_payloads` -/
def fromAnchorPayloads (payloads : List AnchorPayload) : AnchorRegistry :=
  let read := payloads.filter (·.filePath ≠ "")
  { fromPayloads text (payloads.map (·.toPayload)) with
    moduleFiles := firsts Prod.fst
      (read.map fun p => (text.norm p.moduleName, p.moduleName, p.filePath))
    controlByModule := read.flatMap (·.controlWrites text)
    paramTypesByProc := read.flatMap (·.paramWrites text) }

namespace AnchorRegistry

variable (reg : AnchorRegistry)

/-- `control_id` -/
def controlId (moduleKey name : String) : Option String :=
  lastOf reg.controlByModule (text.norm moduleKey, text.norm name)

/-- `find_typed_variable` -/
def findTypedVariable (receiver callerModule callerProc : String) : Option VariableInfo :=
  reg.findLateBoundVariable text receiver callerModule callerProc

/-- `param_type` -/
def paramType (callerModule callerProc name : String) : Option String :=
  (lastOf reg.paramTypesByProc (text.norm callerModule, text.norm callerProc)).bind
    fun mapping => lastOf mapping (text.norm name)

/-- `type_node_id` -/
def typeNodeId (name : String) : Option String :=
  match reg.getModule (text.norm name), (lookup Prod.fst (text.norm name) reg.moduleFiles) with
  | some module, some (_, moduleName, filePath) =>
    if module.kind = .bas then none else some (moduleName ++ "@" ++ filePath)
  | _, _ => none

end AnchorRegistry

/-! ## Classification -/

/-- `COM_TYPE_PREFIXES` -/
def comTypePrefixes : List String := ["adodb.", "dao.", "rdo.", "scripting."]

/-- `is_com_type_name` -/
def isComTypeName (typeName : String) : Bool :=
  comTypePrefixes.any fun start => startsWith (text.norm typeName) start

/-- `external_com_type_id` -/
def externalComTypeId (typeName : String) : String :=
  "external::vb6/" ++ text.lower (strip typeName)

/-- `_classify_receiver_type`: a kind and an id. -/
def classifyReceiverType (reg : AnchorRegistry) (typeName : String) : String × String :=
  if isComTypeName text typeName then ("com_type", externalComTypeId text typeName)
  else
    match reg.typeNodeId text typeName with
    | some nodeId => ("type", nodeId)
    | none =>
      if ["object", "variant", ""].contains (text.norm typeName) then ("late_bound", "")
      else ("unresolved_type", "")

/-- The variable or parameter of the target's name, if its own name classifies as nothing. -/
def classifyDeclared (reg : AnchorRegistry) (moduleKey proc expr : String) : String × String :=
  let own := classifyReceiverType text reg expr
  if own.1 = "late_bound" || own.1 = "unresolved_type" then
    let var := reg.findTypedVariable text expr moduleKey proc
    match var.filter fun v => !v.lateBound text with
    | some v => classifyReceiverType text reg v.typeName
    | none =>
      match (reg.paramType text moduleKey proc expr).filter (· ≠ "") with
      | some varType => classifyReceiverType text reg varType
      | none => if var.isSome then ("late_bound", own.2) else own
  else own

/-- `module_key_t` -/
def WithTarget.moduleKey (target : WithTarget) (moduleKey : String) : String :=
  text.norm (if target.module = "" then moduleKey else target.module)

/-- One round of the loop over `with_targets`. -/
def resolveTarget (reg : AnchorRegistry) (moduleKey : String) (target : WithTarget) : WithTarget :=
  let moduleKeyT := target.moduleKey text moduleKey
  let expr := strip target.exprRaw
  if target.isNew then { target with targetKind := "new" }
  else
    match reg.controlId text moduleKeyT expr with
    | some control => { target with targetKind := "control", targetId := control }
    | none =>
      let (kind, targetId) := classifyDeclared text reg moduleKeyT target.proc expr
      if kind = "unresolved_type" then { target with targetKind := "unknown", targetId := "" }
      else { target with targetKind := kind, targetId := targetId }

/-! ## Attachment -/

/-- The lines of a block. -/
def WithTarget.span (target : WithTarget) : Int × Int := (target.line, target.blockEndLine)

/-- `row.get("via_with") and row.get("member")` -/
def UiRow.attachable (row : UiRow) : Bool := row.viaWith && row.member ≠ ""

/-- `covering` -/
def covering (targets : List WithTarget) (row : UiRow) : List WithTarget :=
  targets.filter fun t => t.proc = row.proc && t.line ≤ row.line && row.line ≤ t.blockEndLine

/-- Whether `t` has a greater pair of lines than `s`. -/
def WithTarget.later (t s : WithTarget) : Bool :=
  s.line < t.line || s.line = t.line && s.blockEndLine < t.blockEndLine

/-- `max(covering, key=lambda t: (line, block_end_line))`, the first of them -/
def selected (targets : List WithTarget) (row : UiRow) : Option WithTarget :=
  best WithTarget.later (covering targets row)

/-- One round of the loop over `ui_access`. -/
def attachRow (targets : List WithTarget) (row : UiRow) : UiRow :=
  if row.attachable then
    match selected targets row with
    | none => row
    | some innermost =>
      { row with
        withTargetKind :=
          some (if innermost.targetKind = "" then "unknown" else innermost.targetKind)
        withTargetId := some innermost.targetId }
  else row

/-- `_payload_module` -/
def AnchorPayload.payloadModule (p : AnchorPayload) : String :=
  if p.metaModule ≠ "" then p.metaModule
  else
    let base := basename p.pathText
    String.ofList (base.toList.take (base.length - (extension base).length))

/-- The targets of one payload, classified. -/
def resolvedTargets (reg : AnchorRegistry) (p : AnchorPayload) : List WithTarget :=
  p.withTargets.map (resolveTarget text reg (text.norm p.payloadModule))

/-- The pass on one payload. -/
def resolvePayload (reg : AnchorRegistry) (p : AnchorPayload) : AnchorPayload :=
  let targets := resolvedTargets text reg p
  { p with withTargets := targets, uiAccess := p.uiAccess.map (attachRow targets) }

/-- `counts[kind] += 1` for the kinds that are counted; a control is not. -/
def countKind (counts : List (String × Nat)) (target : WithTarget) : List (String × Nat) :=
  if target.isNew || target.targetKind = "control" then counts
  else counts.map fun c => if c.1 = target.targetKind then (c.1, c.2 + 1) else c

/-- `resolve_with_targets`: the payloads as it leaves them, and its counts. -/
def resolveWithTargets (payloads : List AnchorPayload) (reg : AnchorRegistry) :
    List AnchorPayload × List (String × Nat) :=
  (payloads.map (resolvePayload text reg),
    (payloads.flatMap (resolvedTargets text reg)).foldl countKind
      [("control", 0), ("type", 0), ("com_type", 0), ("unknown", 0)])

/-! ## What a round changes -/

variable {text} {reg : AnchorRegistry} {p : AnchorPayload} {moduleKey : String}
  {target b : WithTarget} {targets : List WithTarget} {row : UiRow}

/-- A classification changes neither the procedure nor the lines of a block. -/
theorem resolveTarget_place :
    (resolveTarget text reg moduleKey target).proc = target.proc ∧
      (resolveTarget text reg moduleKey target).span = target.span := by
  unfold resolveTarget
  dsimp only
  split
  · exact ⟨rfl, rfl⟩
  · split
    · exact ⟨rfl, rfl⟩
    · split <;> exact ⟨rfl, rfl⟩

theorem classifyReceiverType_ne_empty (typeName : String) :
    (classifyReceiverType text reg typeName).1 ≠ "" := by
  unfold classifyReceiverType
  split
  · simp
  · split
    · simp
    · split <;> decide

theorem classifyDeclared_ne_empty (proc expr : String) :
    (classifyDeclared text reg moduleKey proc expr).1 ≠ "" := by
  unfold classifyDeclared
  dsimp only
  split
  · split
    · exact classifyReceiverType_ne_empty _
    · split
      · exact classifyReceiverType_ne_empty _
      · split
        · simp
        · exact classifyReceiverType_ne_empty _
  · exact classifyReceiverType_ne_empty _

theorem resolveTarget_kind_ne_empty :
    (resolveTarget text reg moduleKey target).targetKind ≠ "" := by
  unfold resolveTarget
  dsimp only
  split
  · simp
  · split
    · simp
    · split
      · simp
      · exact classifyDeclared_ne_empty _ _

/-- The blocks around a row do not depend on how they are classified. -/
theorem covering_map :
    covering (targets.map (resolveTarget text reg moduleKey)) row =
      (covering targets row).map (resolveTarget text reg moduleKey) := by
  unfold covering
  rw [List.filter_map]
  congr 1
  refine List.filter_congr fun t _ => ?_
  obtain ⟨hproc, hspan⟩ := @resolveTarget_place text reg moduleKey t
  obtain ⟨hline, hend⟩ := Prod.ext_iff.mp hspan
  simp only [WithTarget.span] at hline hend
  simp only [Function.comp_apply, hproc, hline, hend]

/-! ## The innermost block -/

/-- The blocks of one procedure are properly nested, or have no line in common. -/
def AnchorPayload.Nested (p : AnchorPayload) : Prop :=
  p.withTargets.Pairwise fun s t => s.proc = t.proc → NestedOrApart s.span t.span

theorem AnchorPayload.Nested.around (h : p.Nested) (row : UiRow) :
    Around WithTarget.span (covering p.withTargets row) row.line := by
  have hmem : ∀ t ∈ covering p.withTargets row,
      t.proc = row.proc ∧ t.line ≤ row.line ∧ row.line ≤ t.blockEndLine := fun t ht => by
    simpa [and_assoc] using (List.mem_filter.mp ht).2
  refine ⟨?_, fun t ht => ⟨(hmem t ht).2.1, (hmem t ht).2.2⟩⟩
  refine (h.sublist List.filter_sublist).imp_of_mem fun {s t} hs ht hst => ?_
  exact hst ((hmem s hs).1.trans (hmem t ht).1.symm)

/-- `row'` has the kind and the id of the innermost of the classified blocks around `row`. -/
def RowAttached (targets : List WithTarget) (row row' : UiRow) : Prop :=
  row.attachable = true → covering targets row ≠ [] →
    ∃ b, Innermost WithTarget.span (covering targets row) b ∧
      row'.withTargetKind = some b.targetKind ∧ row'.withTargetId = some b.targetId

/-- Every row of a payload is attached to the innermost block around it. -/
def PayloadAttached (p p' : AnchorPayload) : Prop :=
  List.Forall₂ (RowAttached p'.withTargets) p.uiAccess p'.uiAccess

/-- What a block is classified as. -/
def classification (text : Text) (reg : AnchorRegistry) (p : AnchorPayload) (t : WithTarget) :
    String × String :=
  let resolved := resolveTarget text reg (text.norm p.payloadModule) t
  (resolved.targetKind, resolved.targetId)

/-- The longest block around the row that starts on the innermost one's line is classified as the
innermost one is. -/
def StartsAlike (text : Text) (reg : AnchorRegistry) (p : AnchorPayload) (row : UiRow) : Prop :=
  ∀ b outer, Innermost WithTarget.span (covering p.withTargets row) b →
    outer ∈ covering p.withTargets row → outer.line = b.line →
    (∀ c ∈ covering p.withTargets row, c.line = b.line → c.blockEndLine ≤ outer.blockEndLine) →
    classification text reg p outer = classification text reg p b

theorem later_eq : WithTarget.later = fun t s => decide (toLex s.span < toLex t.span) := by
  funext t s
  rw [Bool.eq_iff_iff, decide_eq_true_iff, Prod.Lex.toLex_lt_toLex]
  simp [WithTarget.later, WithTarget.span]

theorem selected_greatest (h : selected targets row = some target) :
    target ∈ covering targets row ∧
      ∀ c ∈ covering targets row, toLex c.span ≤ toLex target.span := by
  refine ⟨best_mem h, ?_⟩
  unfold selected at h
  rw [later_eq] at h
  exact best_le h

/-- What is selected: the longest of the blocks around the row that start on the innermost one's
line, classified. -/
theorem selected_resolved (hnested : p.Nested)
    (hb : Innermost WithTarget.span (covering p.withTargets row) b) :
    ∃ outer ∈ covering p.withTargets row,
      selected (resolvedTargets text reg p) row =
        some (resolveTarget text reg (text.norm p.payloadModule) outer) ∧
      outer.line = b.line ∧
      ∀ c ∈ covering p.withTargets row, c.line = b.line → c.blockEndLine ≤ outer.blockEndLine := by
  have hspan : ∀ t, (resolveTarget text reg (text.norm p.payloadModule) t).span = t.span :=
    fun t => resolveTarget_place.2
  have hinner := (innermost_map hspan (hnested.around row)).mpr ⟨b, hb, rfl⟩
  have hcover : covering (resolvedTargets text reg p) row =
      (covering p.withTargets row).map (resolveTarget text reg (text.norm p.payloadModule)) :=
    covering_map
  rw [← hcover] at hinner
  obtain ⟨s, hselected⟩ : ∃ s, selected (resolvedTargets text reg p) row = some s :=
    best_isSome (List.ne_nil_of_mem hinner.1)
  obtain ⟨hmem, hgreatest⟩ := selected_greatest hselected
  obtain ⟨hline, hlongest⟩ := greatest_span hinner hmem hgreatest
  obtain ⟨outer, houter, rfl⟩ := List.mem_map.mp (hcover ▸ hmem)
  rw [hspan, hspan] at hline
  refine ⟨outer, houter, hselected, hline, fun c hc hcb => ?_⟩
  have hc' := hlongest _ (hcover ▸ List.mem_map_of_mem hc) (by rw [hspan, hspan]; exact hcb)
  rwa [hspan, hspan] at hc'

theorem attachRow_selected (hattachable : row.attachable = true)
    (hselected : selected targets row = some (resolveTarget text reg moduleKey target)) :
    (attachRow targets row).withTargetKind =
        some (resolveTarget text reg moduleKey target).targetKind ∧
      (attachRow targets row).withTargetId =
        some (resolveTarget text reg moduleKey target).targetId := by
  unfold attachRow
  rw [if_pos hattachable, hselected]
  simp only [if_neg resolveTarget_kind_ne_empty, and_self]

/-- **One row**: it is attached to the innermost block around it exactly when the longest block that
starts on that one's line is classified alike. -/
theorem rowAttached_iff (hnested : p.Nested) :
    RowAttached (resolvedTargets text reg p) row (attachRow (resolvedTargets text reg p) row) ↔
      (row.attachable = true → StartsAlike text reg p row) := by
  have hspan : ∀ t, (resolveTarget text reg (text.norm p.payloadModule) t).span = t.span :=
    fun t => resolveTarget_place.2
  have hcover : covering (resolvedTargets text reg p) row =
      (covering p.withTargets row).map (resolveTarget text reg (text.norm p.payloadModule)) :=
    covering_map
  unfold RowAttached
  rw [hcover]
  constructor
  · intro h hattachable b outer hb houter hline hlongest
    have hne : (covering p.withTargets row).map
        (resolveTarget text reg (text.norm p.payloadModule)) ≠ [] :=
      List.ne_nil_of_mem (List.mem_map_of_mem houter)
    obtain ⟨b', hb', hkind, hid⟩ := h hattachable hne
    obtain ⟨b₁, hb₁, rfl⟩ := (innermost_map hspan (hnested.around row)).mp hb'
    obtain rfl := hb₁.unique hb
    obtain ⟨s, hs, hselected, hsline, hslongest⟩ :=
      @selected_resolved text reg p _ row hnested hb
    -- the longest block that starts there is the selected one
    have hsame : s = outer := (hnested.around row).eq_of_span_eq hs houter
      (Prod.ext (hsline.trans hline.symm)
        (le_antisymm (hlongest s hs hsline) (hslongest outer houter hline)))
    obtain ⟨hkind', hid'⟩ := attachRow_selected hattachable hselected
    rw [hsame] at hkind' hid'
    exact Prod.ext (Option.some.inj (hkind'.symm.trans hkind))
      (Option.some.inj (hid'.symm.trans hid))
  · intro h hattachable hne
    have hne' : covering p.withTargets row ≠ [] := mt List.map_eq_nil_iff.mpr hne
    obtain ⟨b, hb⟩ := exists_innermost (hnested.around row) hne'
    obtain ⟨s, hs, hselected, hsline, hslongest⟩ :=
      @selected_resolved text reg p _ row hnested hb
    have halike := Prod.ext_iff.mp (h hattachable b s hb hs hsline hslongest)
    obtain ⟨hkind, hid⟩ := attachRow_selected hattachable hselected
    exact ⟨_, (innermost_map hspan (hnested.around row)).mpr ⟨b, hb, rfl⟩,
      hkind.trans (congrArg some halike.1), hid.trans (congrArg some halike.2)⟩

/-- No other block around the row starts on the innermost one's line. -/
def StartsAlone (p : AnchorPayload) (row : UiRow) : Prop :=
  ∀ b c, Innermost WithTarget.span (covering p.withTargets row) b →
    c ∈ covering p.withTargets row → c.line = b.line → c = b

theorem StartsAlone.alike (h : StartsAlone p row) : StartsAlike text reg p row :=
  fun b outer hb houter hline _ => by rw [h b outer hb houter hline]

/-- **The attachment of a run**: of properly nested blocks, every row is attached to the innermost
one around it exactly when, for every row, the longest block that starts on the innermost one's line
is classified as the innermost one is. -/
theorem attached_iff (payloads : List AnchorPayload) (hnested : ∀ p ∈ payloads, p.Nested) :
    List.Forall₂ PayloadAttached payloads (resolveWithTargets text payloads reg).1 ↔
      ∀ p ∈ payloads, ∀ row ∈ p.uiAccess, row.attachable = true → StartsAlike text reg p row := by
  unfold resolveWithTargets
  rw [List.forall₂_map_right_iff, List.forall₂_same]
  refine forall₂_congr fun p hp => ?_
  unfold PayloadAttached resolvePayload
  rw [List.forall₂_map_right_iff, List.forall₂_same]
  exact forall₂_congr fun row _ => rowAttached_iff (hnested p hp)

/-- Blocks that start on lines of their own. -/
theorem attached_of_alone (payloads : List AnchorPayload) (hnested : ∀ p ∈ payloads, p.Nested)
    (halone : ∀ p ∈ payloads, ∀ row ∈ p.uiAccess, row.attachable = true → StartsAlone p row) :
    List.Forall₂ PayloadAttached payloads (resolveWithTargets text payloads reg).1 := by
  unfold resolveWithTargets
  rw [List.forall₂_map_right_iff, List.forall₂_same]
  intro p hp
  unfold PayloadAttached resolvePayload
  rw [List.forall₂_map_right_iff, List.forall₂_same]
  exact fun row hrow => (rowAttached_iff (hnested p hp)).mpr fun hattachable =>
    (halone p hp row hrow hattachable).alike

/-! ## Runs -/

def asciiText : Text where
  lower s := String.ofList (s.toList.map Char.toLower)
  digit := Char.isDigit

def block (expr : String) (line blockEndLine : Int) : WithTarget where
  module := ""
  proc := "Load"
  exprRaw := expr
  isNew := false
  line := line
  blockEndLine := blockEndLine
  targetKind := ""
  targetId := ""

/-- A form with two controls, a block on each of them, and one member inside both. -/
def sampleForm (inner : Int) : AnchorPayload where
  filePath := "frmMain.frm"
  functions := []
  predeclaredId := ""
  implements := []
  declares := []
  variableRows := []
  metaModule := "frmMain"
  pathText := "frmMain.frm"
  controls := [⟨"picBox", "VB.PictureBox"⟩, ⟨"txtName", "VB.TextBox"⟩]
  params := []
  withTargets := [block "picBox" 5 8, block "txtName" inner inner]
  uiAccess := [⟨true, "Text", "Load", inner, none, none⟩]

/-- The member of the sample. -/
def sampleMember (line : Int) : UiRow := ⟨true, "Text", "Load", line, none, none⟩

theorem covering_sampleForm {inner : Int} (hfirst : 5 ≤ inner) (hlast : inner ≤ 8) :
    covering (sampleForm inner).withTargets (sampleMember inner) =
      [block "picBox" 5 8, block "txtName" inner inner] := by
  simp [covering, sampleForm, sampleMember, block, hfirst, hlast]

theorem nested_sampleForm {inner : Int} (hfirst : 5 ≤ inner) (hlast : inner < 8) :
    (sampleForm inner).Nested := by
  refine List.pairwise_pair.mpr fun _ => .inr (.inl ⟨hfirst, hlast.le, fun he => ?_⟩)
  have hend : inner = 8 := (Prod.ext_iff.mp he).2
  omega

theorem attached_sample : List.Forall₂ PayloadAttached [sampleForm 6]
    (resolveWithTargets asciiText [sampleForm 6]
      (fromAnchorPayloads asciiText [sampleForm 6])).1 := by
  refine (attached_iff _ ?_).mpr ?_
  · intro p hp
    rw [List.mem_singleton.mp hp]
    exact nested_sampleForm (by omega) (by omega)
  · intro p hp row hrow _
    obtain rfl := List.mem_singleton.mp hp
    obtain rfl : row = sampleMember 6 := List.mem_singleton.mp hrow
    refine StartsAlone.alike fun b c hb hc hline => ?_
    have hb := hb.1
    rw [covering_sampleForm (by omega) (by omega), List.mem_pair] at hb hc
    rcases hb with rfl | rfl <;> rcases hc with rfl | rfl
    · rfl
    · exact absurd hline (by decide)
    · exact absurd hline (by decide)
    · rfl

/-- `With picBox: With txtName: .Text = ""`: both blocks start on line 5, and the member goes to the
outer one. -/
theorem outer_attached : (sampleForm 5).Nested ∧ ¬ List.Forall₂ PayloadAttached [sampleForm 5]
    (resolveWithTargets asciiText [sampleForm 5]
      (fromAnchorPayloads asciiText [sampleForm 5])).1 := by
  have hnested : (sampleForm 5).Nested := nested_sampleForm (by omega) (by omega)
  have hcover := @covering_sampleForm 5 (by omega) (by omega)
  refine ⟨hnested, fun h => ?_⟩
  have hpayload := (List.forall₂_cons.mp h).1
  have hrow := (List.forall₂_cons.mp hpayload).1
  have hinner : Innermost WithTarget.span (covering (sampleForm 5).withTargets (sampleMember 5))
      (block "txtName" 5 5) := by
    rw [hcover]
    refine ⟨by simp, fun c hc hne => ?_⟩
    rcases List.mem_pair.mp hc with rfl | rfl
    · exact ⟨by decide, by decide, by decide⟩
    · exact absurd rfl hne
  have halike : StartsAlike asciiText (fromAnchorPayloads asciiText [sampleForm 5]) (sampleForm 5)
      (sampleMember 5) := (rowAttached_iff hnested).mp hrow rfl
  have hlongest : ∀ c ∈ covering (sampleForm 5).withTargets (sampleMember 5),
      c.line = 5 → c.blockEndLine ≤ 8 := by
    rw [hcover]
    intro c hc _
    rcases List.mem_pair.mp hc with rfl | rfl <;> decide
  have houter : block "picBox" 5 8 ∈ covering (sampleForm 5).withTargets (sampleMember 5) := by
    rw [hcover]
    exact List.mem_cons_self
  exact absurd (halike _ _ hinner houter rfl hlongest) (by decide +kernel)

end CortexHarness.Vb6
