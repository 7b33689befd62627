import CortexHarness.Library.Reorder
import CortexHarness.Vb6.Calls
import CortexHarness.Vb6.Rerun

/-!
# Resolving VB6 calls in another order

What a call is resolved to reads the payloads in their order: the first variable of a name, the
first procedure that implements a member. Where the modules have different names, and the payloads
agree on what the call finds first (`Agree`), the order of the payloads changes no callee, no
status and no candidate (`resolveCall_alike`).

Result: **`steady`**.
-/

namespace CortexHarness.Vb6

open Table

variable (text : Text)

section Conditions

variable (call : CallEdge)

/-- The key of the module that a payload registers. -/
def Payload.key (p : Payload) : String := text.norm p.moduleName

/-- The payloads that are read. -/
def readPayloads (payloads : List Payload) : List Payload := payloads.filter (·.filePath ≠ "")

/-- The variable could be the receiver: it is declared in the caller's module, in the caller or
outside of every procedure (`inProcedure` says which). -/
def CouldReceive (inProcedure : Bool) (v : VariableInfo) : Prop :=
  text.norm v.name = text.norm (call.receiver text) ∧
    text.norm v.moduleName = text.norm (call.callerModule text) ∧
    match v.procedureName with
    | some proc => inProcedure = true ∧ text.norm proc = text.norm (call.callerProc text)
    | none => inProcedure = false

/-- Two payloads agree on what the call finds first: on the type of its receiver, and on whether
a member it looks for is private. -/
structure Agree (p p' : Payload) : Prop where
  receivers : ∀ inProcedure, ∀ row ∈ p.variableRows, ∀ row' ∈ p'.variableRows,
    CouldReceive text call inProcedure (p.variableInfo row) →
      CouldReceive text call inProcedure (p'.variableInfo row') →
        text.norm row.typeName = text.norm row'.typeName
  members : ∀ fn ∈ p.functions, ∀ fn' ∈ p'.functions,
    text.norm fn.name = call.calleeKey text → text.norm fn'.name = call.calleeKey text →
      fn.symbolId = fn'.symbolId → fn.isPrivate = fn'.isPrivate

/-- The modules have different names. -/
def Distinct (payloads : List Payload) : Prop :=
  Keyed (Payload.key text) (readPayloads payloads)

/-- The calls are left the same callee, status and candidates. -/
structure Alike (resolved resolved' : CallEdge) : Prop where
  calleeId : resolved.calleeId = resolved'.calleeId
  status : resolved.resolutionStatus = resolved'.resolutionStatus
  candidateIds : resolved.candidateIds.Perm resolved'.candidateIds

theorem Alike.rfl {resolved : CallEdge} : Alike resolved resolved := ⟨Eq.refl _, Eq.refl _, .refl _⟩

theorem Alike.of_eq {resolved resolved' : CallEdge} (h : resolved = resolved') :
    Alike resolved resolved' := h ▸ .rfl

end Conditions

/-! ## The tables in another order -/

section Tables

variable {text : Text} {payloads payloads' : List Payload}

theorem readPayloads_perm (hperm : payloads.Perm payloads') :
    (readPayloads payloads).Perm (readPayloads payloads') := hperm.filter _

theorem modules_of_distinct (h : Distinct text payloads) :
    (fromPayloads text payloads).modules =
      (readPayloads payloads).map fun p => (p.key text, p.module text) := by
  refine firsts_of_keyed ?_
  unfold Keyed
  rw [List.map_map]
  exact h

theorem keyed_modules (h : Distinct text payloads) :
    Keyed Prod.fst (fromPayloads text payloads).modules := by
  unfold Keyed
  rw [modules_of_distinct h, List.map_map]
  exact h

theorem modules_perm (h : Distinct text payloads) (hperm : payloads.Perm payloads') :
    (fromPayloads text payloads).modules.Perm (fromPayloads text payloads').modules := by
  have h' : Distinct text payloads' := Keyed.reorder h (readPayloads_perm hperm)
  rw [modules_of_distinct h, modules_of_distinct h']
  exact (readPayloads_perm hperm).map _

theorem getModule_perm (h : Distinct text payloads) (hperm : payloads.Perm payloads')
    (key : String) :
    (fromPayloads text payloads).getModule key = (fromPayloads text payloads').getModule key := by
  unfold Registry.getModule
  rw [lookup_perm (keyed_modules h) (modules_perm h hperm)]

theorem qualifiedCandidates_perm (h : Distinct text payloads) (hperm : payloads.Perm payloads')
    (moduleName member : String) :
    (fromPayloads text payloads).qualifiedCandidates text moduleName member =
      (fromPayloads text payloads').qualifiedCandidates text moduleName member := by
  unfold Registry.qualifiedCandidates
  rw [getModule_perm h hperm]

theorem anyByName_perm (h : Distinct text payloads) (hperm : payloads.Perm payloads')
    (key : String) :
    ((fromPayloads text payloads).anyByName text key).Perm
      ((fromPayloads text payloads').anyByName text key) :=
  ((modules_perm h hperm).flatMap fun _ _ => .refl _).filter _

theorem publicByName_perm (h : Distinct text payloads) (hperm : payloads.Perm payloads')
    (key : String) :
    ((fromPayloads text payloads).publicByName text key).Perm
      ((fromPayloads text payloads').publicByName text key) :=
  (modules_perm h hperm).flatMap fun _ _ => .refl _

theorem apiNames_perm (hperm : payloads.Perm payloads') :
    (fromPayloads text payloads).apiNames.Perm (fromPayloads text payloads').apiNames :=
  (readPayloads_perm hperm).flatMap fun _ _ => .refl _

end Tables

/-! ## The lookups in another order -/

section Lookups

variable {text : Text}

theorem narrow_perm {α : Type} {fn : α → FunctionDef} {arity : Option Int} {rows rows' : List α}
    (hperm : rows.Perm rows') : (narrow fn arity rows).Perm (narrow fn arity rows') := by
  cases arity with
  | none => exact hperm
  | some argCount =>
    have hempty : ∀ {l l' : List α}, l.Perm l' → l.isEmpty = l'.isEmpty := by
      intro l l' h
      rw [Bool.eq_iff_iff, List.isEmpty_iff, List.isEmpty_iff]
      exact ⟨fun hl => (h.symm.trans (hl ▸ .nil)).eq_nil, fun hl => (h.trans (hl ▸ .nil)).eq_nil⟩
    have hby : (byArity fn argCount rows).Perm (byArity fn argCount rows') := by
      unfold byArity
      dsimp only
      rw [hempty (hperm.filter fun r => (fn r).arity = argCount)]
      split
      · exact hperm.filter _
      · exact hperm.filter _
    unfold narrow
    dsimp only
    rw [hempty hby]
    split
    · exact hperm
    · exact hby

variable {payloads payloads' : List Payload} {call : CallEdge}

/-- The variables that could be the receiver, one of the two lookups of
`findLateBoundVariable`. -/
theorem couldReceive_perm (hperm : payloads.Perm payloads')
    (hagree : (readPayloads payloads).Pairwise (Agree text call)) (inProcedure : Bool)
    (p : VariableInfo → Bool) (hp : ∀ v, p v = true → CouldReceive text call inProcedure v) :
    ((fromPayloads text payloads).variableInfos.find? p).map (VariableInfo.typeKey text) =
      ((fromPayloads text payloads').variableInfos.find? p).map (VariableInfo.typeKey text) := by
  refine find?_flatMap_perm (readPayloads_perm hperm) (hagree.imp ?_)
  intro a a' hsame x hx x' hx' hpx hpx'
  obtain ⟨row, hrow, rfl⟩ := List.mem_map.mp hx
  obtain ⟨row', hrow', rfl⟩ := List.mem_map.mp hx'
  exact hsame.receivers inProcedure row hrow row' hrow' (hp _ hpx) (hp _ hpx')

theorem receiverVariable_perm (hperm : payloads.Perm payloads')
    (hagree : (readPayloads payloads).Pairwise (Agree text call)) :
    (receiverVariable text (fromPayloads text payloads) call).map (VariableInfo.typeKey text) =
      (receiverVariable text (fromPayloads text payloads') call).map
        (VariableInfo.typeKey text) := by
  unfold receiverVariable Registry.findLateBoundVariable
  simp only [List.find?_filter, Option.map_or]
  congr 1
  · refine couldReceive_perm hperm hagree true _ fun v hv => ?_
    unfold CouldReceive
    cases hproc : v.procedureName with
    | none => simp [hproc] at hv
    | some proc => simpa [hproc, and_assoc] using hv
  · refine couldReceive_perm hperm hagree false _ fun v hv => ?_
    unfold CouldReceive
    cases hproc : v.procedureName with
    | none => simpa [hproc] using hv
    | some proc => simp [hproc] at hv

/-- What a payload's module gives `interfaceMemberCandidates`, once for each time it says that it
implements the interface. -/
def memberBlock (text : Text) (reg : Registry) (interfaceName member : String) (p : Payload) :
    List (String × FunctionDef) :=
  (((p.implements.map text.norm).filter (· ≠ "")).filter (· = text.norm interfaceName)).flatMap
    fun _ =>
      match reg.getModule (p.key text) with
      | some m => (m.functionsNamed text member).map (p.key text, ·)
      | none => []

theorem interfaceMemberCandidates_blocks (interfaceName member : String) :
    (fromPayloads text payloads).interfaceMemberCandidates text interfaceName member =
      firsts (fun kf => kf.2.symbolId) ((readPayloads payloads).flatMap
        (memberBlock text (fromPayloads text payloads) interfaceName member)) := by
  have himplementers : (((fromPayloads text payloads).implementersOf.filter
        (·.1 = text.norm interfaceName)).map Prod.snd) =
      (readPayloads payloads).flatMap fun p =>
        (((p.implements.map text.norm).filter (· ≠ "")).filter
          (· = text.norm interfaceName)).map fun _ => p.key text := by
    unfold fromPayloads
    dsimp only
    rw [List.filter_flatMap, List.map_flatMap]
    congr 1
    funext p
    rw [List.filter_map, List.map_map]
    rfl
  unfold Registry.interfaceMemberCandidates
  dsimp only
  rw [himplementers, List.flatMap_assoc]
  congr 1
  congr 1
  funext p
  rw [List.flatMap_map]
  rfl

theorem getModule_key (h : Distinct text payloads) {p : Payload} (hp : p ∈ readPayloads payloads) :
    (fromPayloads text payloads).getModule (p.key text) = some (p.module text) := by
  unfold Registry.getModule
  have hmem : (p.key text, p.module text) ∈ (fromPayloads text payloads).modules := by
    rw [modules_of_distinct h]
    exact List.mem_map_of_mem hp
  rw [lookup_of_mem (keyed_modules h) hmem]
  rfl

theorem memberBlock_mem (h : Distinct text payloads) {p : Payload}
    (hp : p ∈ readPayloads payloads) {interfaceName member : String} {kf : String × FunctionDef}
    (hkf : kf ∈ memberBlock text (fromPayloads text payloads) interfaceName member p) :
    kf.2 ∈ p.functions ∧ text.norm kf.2.name = text.norm member := by
  obtain ⟨_, -, hkf⟩ := List.mem_flatMap.mp hkf
  rw [getModule_key h hp] at hkf
  obtain ⟨fn, hfn, rfl⟩ := List.mem_map.mp hkf
  simpa [ModuleInfo.functionsNamed, Payload.module] using hfn

/-- The rows that implementers are found in, in both orders. -/
theorem memberBlocks_perm (h : Distinct text payloads) (hperm : payloads.Perm payloads')
    (interfaceName member : String) :
    ((readPayloads payloads).flatMap
        (memberBlock text (fromPayloads text payloads) interfaceName member)).Perm
      ((readPayloads payloads').flatMap
        (memberBlock text (fromPayloads text payloads') interfaceName member)) := by
  have hblock : memberBlock text (fromPayloads text payloads) interfaceName member =
      memberBlock text (fromPayloads text payloads') interfaceName member := by
    funext p
    unfold memberBlock
    rw [getModule_perm h hperm]
  rw [hblock]
  exact (readPayloads_perm hperm).flatMap fun _ _ => .refl _

theorem implementers_keys_perm (h : Distinct text payloads) (hperm : payloads.Perm payloads')
    (interfaceName member : String) :
    (((fromPayloads text payloads).interfaceMemberCandidates text interfaceName member).map
        (·.2.symbolId)).Perm
      (((fromPayloads text payloads').interfaceMemberCandidates text interfaceName member).map
        (·.2.symbolId)) := by
  rw [interfaceMemberCandidates_blocks, interfaceMemberCandidates_blocks]
  exact firsts_keys_perm _ (memberBlocks_perm h hperm interfaceName member)

/-- When the implementers have one symbol, the first of them is private in both orders or in
neither. -/
theorem implementers_head_perm (h : Distinct text payloads) (hperm : payloads.Perm payloads')
    (hagree : (readPayloads payloads).Pairwise (Agree text call)) (interfaceName : String)
    (hone : ∀ kf ∈ (fromPayloads text payloads).interfaceMemberCandidates text interfaceName
      (call.member text), ∀ kf' ∈ (fromPayloads text payloads).interfaceMemberCandidates text
        interfaceName (call.member text), kf.2.symbolId = kf'.2.symbolId) :
    ((fromPayloads text payloads).interfaceMemberCandidates text interfaceName
        (call.member text)).head?.map (·.2.isPrivate) =
      ((fromPayloads text payloads').interfaceMemberCandidates text interfaceName
        (call.member text)).head?.map (·.2.isPrivate) := by
  have hblock : memberBlock text (fromPayloads text payloads') interfaceName (call.member text) =
      memberBlock text (fromPayloads text payloads) interfaceName (call.member text) := by
    funext p
    unfold memberBlock
    rw [getModule_perm h hperm]
  rw [interfaceMemberCandidates_blocks] at hone
  rw [interfaceMemberCandidates_blocks, interfaceMemberCandidates_blocks, head?_firsts,
    head?_firsts, hblock]
  refine head?_flatMap_perm (readPayloads_perm hperm) (hagree.imp_of_mem ?_)
  intro p p' hp hp' hsame kf hkf kf' hkf'
  obtain ⟨hfn, hname⟩ := memberBlock_mem h hp hkf
  obtain ⟨hfn', hname'⟩ := memberBlock_mem h hp' hkf'
  refine hsame.members _ hfn _ hfn' hname hname' ?_
  obtain ⟨x, hx, hsymbol⟩ : ∃ x ∈ firsts (fun kf : String × FunctionDef => kf.2.symbolId) _,
      x.2.symbolId = kf.2.symbolId := exists_firsts (List.mem_flatMap.mpr ⟨p, hp, hkf⟩)
  obtain ⟨x', hx', hsymbol'⟩ : ∃ x ∈ firsts (fun kf : String × FunctionDef => kf.2.symbolId) _,
      x.2.symbolId = kf'.2.symbolId := exists_firsts (List.mem_flatMap.mpr ⟨p', hp', hkf'⟩)
  exact hsymbol.symm.trans ((hone x hx x' hx').trans hsymbol')

end Lookups

/-! ## A call in another order -/

section Calls

variable {text : Text} {payloads payloads' : List Payload} {call : CallEdge}

theorem lateBound_of_typeKey {v v' : VariableInfo} (h : v.typeKey text = v'.typeKey text) :
    v.lateBound text = v'.lateBound text := by
  unfold VariableInfo.lateBound
  rw [h]

theorem any_lateBound {found found' : Option VariableInfo}
    (h : found.map (VariableInfo.typeKey text) = found'.map (VariableInfo.typeKey text)) :
    found.any (·.lateBound text) = found'.any (·.lateBound text) := by
  cases found with
  | none => rw [Option.map_eq_none_iff.mp h.symm]
  | some v =>
    obtain ⟨v', rfl, hv⟩ := Option.map_eq_some_iff.mp h.symm
    exact (lateBound_of_typeKey hv).symm

theorem resolveBare_alike {found found' : Option VariableInfo}
    (h : found.map (VariableInfo.typeKey text) = found'.map (VariableInfo.typeKey text)) :
    resolveBare text call found = resolveBare text call found' := by
  unfold resolveBare
  rw [any_lateBound h]

theorem resolveImplementers_alike {target target' : FunctionDef} {fns fns' : List FunctionDef}
    (hkeys : ((target :: fns).map (·.symbolId)).Perm ((target' :: fns').map (·.symbolId)))
    (hprivate : (symbolIds (target :: fns)).length = 1 → target.isPrivate = target'.isPrivate) :
    Alike (resolveImplementers call target fns) (resolveImplementers call target' fns') := by
  have hsymbols : (symbolIds (target :: fns)).Perm (symbolIds (target' :: fns')) := hkeys.dedup
  unfold resolveImplementers
  dsimp only
  rw [← hsymbols.length_eq]
  by_cases hone : (symbolIds (target :: fns)).length = 1
  · obtain ⟨-, hsame⟩ := dedup_length_one.mp hone
    have htarget : target.symbolId = target'.symbolId :=
      hsame _ (by simp) _ (hkeys.symm.subset (by simp))
    rw [if_pos hone, if_pos hone, hprivate hone, htarget]
    exact .rfl
  · rw [if_neg hone, if_neg hone]
    exact ⟨rfl, rfl, (List.mergeSort_perm _ _).trans
      (hsymbols.trans (List.mergeSort_perm _ _).symm)⟩

theorem resolveTyped_alike (h : Distinct text payloads) (hperm : payloads.Perm payloads')
    (hagree : (readPayloads payloads).Pairwise (Agree text call)) {v v' : VariableInfo}
    (hv : v.typeKey text = v'.typeKey text) :
    Alike (resolveTyped text (fromPayloads text payloads) call v)
      (resolveTyped text (fromPayloads text payloads') call v') := by
  have hkeys := implementers_keys_perm h hperm (v.typeKey text) (call.member text)
  have hhead := implementers_head_perm h hperm hagree (v.typeKey text)
  have hmembers : typeMembers text (fromPayloads text payloads) call v =
      typeMembers text (fromPayloads text payloads') call v' := by
    unfold typeMembers
    rw [getModule_perm h hperm, hv]
  unfold resolveTyped implementerMembers
  rw [← hv, ← hmembers]
  generalize (fromPayloads text payloads).interfaceMemberCandidates text (v.typeKey text)
    (call.member text) = hits at hkeys hhead ⊢
  generalize (fromPayloads text payloads').interfaceMemberCandidates text (v.typeKey text)
    (call.member text) = hits' at hkeys hhead ⊢
  cases hits with
  | nil =>
    obtain rfl : hits' = [] := by simpa using hkeys
    dsimp only
    split
    · exact .rfl
    · exact .of_eq (resolveBare_alike (by simpa using hv))
  | cons hit hits =>
    cases hits' with
    | nil => simp at hkeys
    | cons hit' hits' =>
      refine resolveImplementers_alike (by simpa [Function.comp_def] using hkeys) fun hone => ?_
      obtain ⟨-, hsame⟩ := dedup_length_one.mp hone
      have hsymbol : ∀ kf ∈ hit :: hits, kf.2.symbolId ∈
          (hit.2 :: hits.map Prod.snd).map (·.symbolId) := by
        intro kf hkf
        exact List.mem_map_of_mem (List.mem_map_of_mem (f := Prod.snd) hkf)
      simpa using hhead fun kf hkf kf' hkf' =>
        hsame _ (hsymbol kf hkf) _ (hsymbol kf' hkf')

theorem resolveReceiver_alike (h : Distinct text payloads) (hperm : payloads.Perm payloads')
    (hagree : (readPayloads payloads).Pairwise (Agree text call)) :
    Alike (resolveReceiver text (fromPayloads text payloads) call)
      (resolveReceiver text (fromPayloads text payloads') call) := by
  have hvariable := receiverVariable_perm hperm hagree
  unfold resolveReceiver
  dsimp only
  rw [← getModule_perm h hperm]
  split
  · unfold resolveMe
    rw [qualifiedCandidates_perm h hperm]
    exact .rfl
  · split
    · exact .rfl
    · split
      · exact .rfl
      · generalize receiverVariable text (fromPayloads text payloads) call = found at hvariable ⊢
        generalize receiverVariable text (fromPayloads text payloads') call = found' at hvariable ⊢
        cases found with
        | none =>
          obtain rfl := Option.map_eq_none_iff.mp hvariable.symm
          exact .rfl
        | some v =>
          obtain ⟨v', rfl, hv⟩ := Option.map_eq_some_iff.mp hvariable.symm
          dsimp only
          rw [lateBound_of_typeKey hv]
          split
          · exact .of_eq (resolveBare_alike hvariable)
          · exact resolveTyped_alike h hperm hagree hv.symm

theorem resolveGlobal_alike (h : Distinct text payloads) (hperm : payloads.Perm payloads') :
    Alike (resolveGlobal text (fromPayloads text payloads) call)
      (resolveGlobal text (fromPayloads text payloads') call) := by
  have hpublics : (publicCandidates text (fromPayloads text payloads) call).Perm
      (publicCandidates text (fromPayloads text payloads') call) :=
    narrow_perm (publicByName_perm h hperm _)
  have hany := anyByName_perm h hperm (call.calleeKey text)
  have hapi : (fromPayloads text payloads).apiNames.contains (call.calleeKey text) =
      (fromPayloads text payloads').apiNames.contains (call.calleeKey text) := by
    rw [Bool.eq_iff_iff, List.contains_iff_mem, List.contains_iff_mem,
      (apiNames_perm hperm).mem_iff]
  unfold resolveGlobal
  dsimp only
  rw [hany.length_eq, hapi]
  generalize publicCandidates text (fromPayloads text payloads) call = publics at hpublics ⊢
  generalize publicCandidates text (fromPayloads text payloads') call = publics' at hpublics ⊢
  have hlength := hpublics.length_eq
  match publics, publics' with
  | [kf], [kf'] =>
    obtain rfl : kf = kf' := by simpa using hpublics
    exact .rfl
  | [], [] =>
    dsimp only
    split
    · exact ⟨rfl, rfl, hany.map _⟩
    · exact .rfl
  | _ :: _ :: _, _ :: _ :: _ =>
    dsimp only
    rw [hlength]
    split
    · exact ⟨rfl, rfl, hany.map _⟩
    · exact .rfl
  | [], _ :: _ | _ :: _, [] | [_], _ :: _ :: _ | _ :: _ :: _, [_] => simp at hlength

/-- **One call with the payloads in another order.** -/
theorem resolveCall_alike (h : Distinct text payloads) (hperm : payloads.Perm payloads')
    (hagree : (readPayloads payloads).Pairwise (Agree text call)) :
    Alike (resolveCall text (fromPayloads text payloads) call)
      (resolveCall text (fromPayloads text payloads') call) := by
  have hlocals : localCandidates text (fromPayloads text payloads') call =
      localCandidates text (fromPayloads text payloads) call :=
    (qualifiedCandidates_perm h hperm _ _).symm
  have hlate := any_lateBound (receiverVariable_perm hperm hagree)
  unfold resolveCall
  rw [hlocals]
  split
  · exact .rfl
  · split
    · unfold resolveDictionary
      rw [hlate]
      exact .rfl
    · split
      · exact .rfl
      · split
        · exact resolveReceiver_alike h hperm hagree
        · split
          · exact .rfl
          · exact resolveGlobal_alike h hperm

end Calls

/-! ## The run -/

section Runs

variable (text : Text) (functions : List FunctionDef) (calls : List CallEdge)
  (payloads : List Payload)

/-- A second run on the calls that a run leaves changes none of them. -/
def Idempotent : Prop :=
  ∀ resolved counts, resolveVb6Calls text functions calls payloads = .ok (resolved, counts) →
    ∃ counts', resolveVb6Calls text functions resolved payloads = .ok (resolved, counts')

/-- The payloads and the calls in any other order leave every call the same callee, status and
candidates. -/
def OrderFree : Prop :=
  ∀ payloads' calls' resolved counts, payloads.Perm payloads' → calls.Perm calls' →
    resolveVb6Calls text functions calls payloads = .ok (resolved, counts) →
      ∃ resolved' counts',
        resolveVb6Calls text functions calls' payloads' = .ok (resolved', counts') ∧
          ∃ rows, (calls.zip resolved).Perm rows ∧
            List.Forall₂ (fun r r' => r.1 = r'.1 ∧ Alike r.2 r'.2) rows (calls'.zip resolved')

variable {text functions calls payloads}

theorem resolveVb6Calls_built (h : TablesBuilt text payloads functions) :
    resolveVb6Calls text functions calls payloads =
      .ok (calls.map (resolveCall text (fromPayloads text payloads)),
        ((calls.map (resolveCall text (fromPayloads text payloads))).map
          (·.resolutionStatus)).foldl record []) := by
  unfold resolveVb6Calls
  rw [resolverTables_built text h]
  rfl

theorem built_of_resolved {resolved : List CallEdge} {counts : List (String × Nat)}
    (hrun : resolveVb6Calls text functions calls payloads = .ok (resolved, counts)) :
    TablesBuilt text payloads functions ∧
      resolved = calls.map (resolveCall text (fromPayloads text payloads)) := by
  by_cases hbuilt : TablesBuilt text payloads functions
  · rw [resolveVb6Calls_built hbuilt] at hrun
    exact ⟨hbuilt, (Prod.mk.inj (Except.ok.inj hrun)).1.symm⟩
  · unfold resolveVb6Calls at hrun
    rw [resolverTables_raises text hbuilt] at hrun
    cases hrun

theorem idempotent_iff :
    Idempotent text functions calls payloads ↔
      (TablesBuilt text payloads functions →
        ∀ call ∈ calls, ¬ Rebound text (fromPayloads text payloads) call) := by
  constructor
  · intro hagain hbuilt call hcall
    obtain ⟨counts', hrun⟩ := hagain _ _ (resolveVb6Calls_built hbuilt)
    obtain ⟨-, hsame⟩ := built_of_resolved hrun
    rw [List.map_map] at hsame
    have hfixed := List.map_inj_left.mp hsame call hcall
    rw [Function.comp_apply] at hfixed
    exact resolveCall_again_iff.mp hfixed.symm
  · intro hnone resolved counts hrun
    obtain ⟨hbuilt, rfl⟩ := built_of_resolved hrun
    have hsame : (calls.map (resolveCall text (fromPayloads text payloads))).map
        (resolveCall text (fromPayloads text payloads)) =
          calls.map (resolveCall text (fromPayloads text payloads)) := by
      rw [List.map_map]
      refine List.map_inj_left.mpr fun call hcall => ?_
      rw [Function.comp_apply]
      exact resolveCall_again_iff.mpr (hnone hbuilt call hcall)
    have hagain : resolveVb6Calls text functions
        (calls.map (resolveCall text (fromPayloads text payloads))) payloads = _ :=
      resolveVb6Calls_built hbuilt
    rw [hsame] at hagain
    exact ⟨_, hagain⟩

theorem tablesBuilt_perm {payloads' : List Payload} (hperm : payloads.Perm payloads')
    (h : TablesBuilt text payloads functions) : TablesBuilt text payloads' functions := by
  rcases h with ⟨p, hp, hpath⟩ | hnone
  · exact .inl ⟨p, hperm.subset hp, hpath⟩
  · exact .inr hnone

theorem rows_perm {resolve resolve' : CallEdge → CallEdge} {calls' : List CallEdge}
    (hcalls : calls.Perm calls') (h : ∀ call ∈ calls, Alike (resolve call) (resolve' call)) :
    ∃ rows, (calls.zip (calls.map resolve)).Perm rows ∧
      List.Forall₂ (fun r r' => r.1 = r'.1 ∧ Alike r.2 r'.2) rows
        (calls'.zip (calls'.map resolve')) := by
  refine ⟨calls'.map fun call => (call, resolve call), ?_, ?_⟩
  · rw [zip_map_self]
    exact hcalls.map _
  · rw [zip_map_self, List.forall₂_map_left_iff, List.forall₂_map_right_iff, List.forall₂_same]
    exact fun call hcall => ⟨rfl, h call (hcalls.symm.subset hcall)⟩

theorem orderFree_of_agree (h : Distinct text payloads)
    (hagree : ∀ call ∈ calls, (readPayloads payloads).Pairwise (Agree text call)) :
    OrderFree text functions calls payloads := by
  intro payloads' calls' resolved counts hpayloads hcalls hrun
  obtain ⟨hbuilt, rfl⟩ := built_of_resolved hrun
  exact ⟨_, _, resolveVb6Calls_built (tablesBuilt_perm hpayloads hbuilt),
    rows_perm hcalls fun call hcall => resolveCall_alike h hpayloads (hagree call hcall)⟩

/-- **Resolving twice, and in another order.** A second run changes nothing exactly when no call
was bound by its name where the second run takes the binding for the worker's. The order changes
nothing where the modules have different names and the payloads agree on what a call finds
first. -/
theorem steady (text : Text) (functions : List FunctionDef) (calls : List CallEdge)
    (payloads : List Payload) :
    (Idempotent text functions calls payloads ↔
      (TablesBuilt text payloads functions →
        ∀ call ∈ calls, ¬ Rebound text (fromPayloads text payloads) call)) ∧
    (Distinct text payloads →
      (∀ call ∈ calls, (readPayloads payloads).Pairwise (Agree text call)) →
        OrderFree text functions calls payloads) :=
  ⟨idempotent_iff, orderFree_of_agree⟩

end Runs

/-! ## A call of the caller's own module -/

/-- A module without procedures. -/
def emptyPayload : Payload :=
  { samplePayload with filePath := "modMain.bas", functions := [] }

/-- `Me.HelperSub` in `modUtil`. -/
def ownCall : CallEdge :=
  { sampleCall with
    callerId := "modUtil.Main/0@modUtil.bas"
    callerScope := "modUtil"
    calleeName := "Me.HelperSub"
    calleeId := none }

theorem steady_sample :
    Idempotent sampleText [sampleHelper] [ownCall] [samplePayload, emptyPayload] ∧
      OrderFree sampleText [sampleHelper] [ownCall] [samplePayload, emptyPayload] := by
  obtain ⟨hagain, horder⟩ :=
    steady sampleText [sampleHelper] [ownCall] [samplePayload, emptyPayload]
  refine ⟨hagain.mpr fun _ => ?_, horder ?_ ?_⟩
  · -- the call has a receiver, and no leading dot
    intro call hcall
    rw [List.mem_singleton.mp hcall]
    rintro ⟨-, -, -, hrebound⟩
    rw [if_pos (by decide +kernel)] at hrebound
    exact absurd hrebound.1 (by decide +kernel)
  · show ([samplePayload, emptyPayload].map (Payload.key sampleText)).Nodup
    decide +kernel
  · intro call _
    refine List.pairwise_pair.mpr ⟨fun _ _ hrow => ?_, fun _ _ _ hfn => ?_⟩
    · cases hrow
    · cases hfn

/-- `HelperSub` in `modUtil`, not bound by the worker: the first run binds it by its name, and the
second one says that the worker did. -/
theorem second_run_relabels :
    resolveVb6Calls sampleText [sampleHelper] [{ ownCall with calleeName := "HelperSub" }]
        [samplePayload] =
      .ok ([{ ownCall with
        calleeName := "HelperSub"
        calleeId := some "modUtil.HelperSub/0@modUtil.bas"
        resolutionStatus := "name_resolved" }], [("name_resolved", 1)]) ∧
    resolveVb6Calls sampleText [sampleHelper] [{ ownCall with
        calleeName := "HelperSub"
        calleeId := some "modUtil.HelperSub/0@modUtil.bas"
        resolutionStatus := "name_resolved" }] [samplePayload] =
      .ok ([{ ownCall with
        calleeName := "HelperSub"
        calleeId := some "modUtil.HelperSub/0@modUtil.bas"
        resolutionStatus := "asg_resolved" }], [("asg_resolved", 1)]) ∧
    ¬ Idempotent sampleText [sampleHelper] [{ ownCall with calleeName := "HelperSub" }]
        [samplePayload] := by
  have hfirst : resolveVb6Calls sampleText [sampleHelper]
      [{ ownCall with calleeName := "HelperSub" }] [samplePayload] =
        .ok ([{ ownCall with
          calleeName := "HelperSub"
          calleeId := some "modUtil.HelperSub/0@modUtil.bas"
          resolutionStatus := "name_resolved" }], [("name_resolved", 1)]) := by
    decide +kernel
  have hsecond : resolveVb6Calls sampleText [sampleHelper] [{ ownCall with
        calleeName := "HelperSub"
        calleeId := some "modUtil.HelperSub/0@modUtil.bas"
        resolutionStatus := "name_resolved" }] [samplePayload] =
      .ok ([{ ownCall with
        calleeName := "HelperSub"
        calleeId := some "modUtil.HelperSub/0@modUtil.bas"
        resolutionStatus := "asg_resolved" }], [("asg_resolved", 1)]) := by
    decide +kernel
  refine ⟨hfirst, hsecond, fun hagain => ?_⟩
  obtain ⟨counts', hrun⟩ := hagain _ _ hfirst
  rw [hsecond] at hrun
  have hstatus := congrArg (List.map CallEdge.resolutionStatus)
    (Prod.mk.inj (Except.ok.inj hrun)).1
  simp at hstatus

end CortexHarness.Vb6
