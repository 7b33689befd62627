import CortexHarness.Vb6.Resolver
import Mathlib.Data.Finset.Card
import Mathlib.Data.Finset.Dedup

/-!
# What a resolved VB6 call says

`CallsSound` is what resolution promises of a run: it raises nothing, its counters add up to the
number of calls, and every call that leaves it is `CallSound`: it carries a callee exactly when it
is resolved, it lists what it could not choose between when it is ambiguous, and a callee that a
name lookup found is no private procedure of another module.

* `choices` are the symbols the resolver had left for an ambiguous call: the implementers, or the
  overloads in the type of the receiver; the procedures of the caller's module, or else the public
  ones, that the arity of the call leaves; every procedure of the name where none is public.
* A procedure is known by its symbol, so a symbol that two procedures share points to both.
  `Identifies` says that no private procedure of another module shares a procedure's symbol.

Each exit of the resolver writes in one of six ways (`kept_iff`, `trusted_sound`, `target_iff`,
`named_iff`, `ambiguous_iff`, `dropped_sound`), and every block of `resolveCall` has one lemma that
says when what it writes is sound.

Result: `calls_sound_iff`, the payloads, functions and calls for which the promise is kept.
-/

namespace CortexHarness.Vb6

variable (text : Text)

/-- The statuses with which a call is resolved. -/
def resolvedStatuses : List String := ["asg_resolved", "name_resolved"]

@[simp] theorem mem_resolvedStatuses {status : String} :
    status ∈ resolvedStatuses ↔ status = "asg_resolved" ∨ status = "name_resolved" := by
  simp [resolvedStatuses]

section Promise

variable (reg : Registry) (call : CallEdge)

/-- The symbols the resolver cannot choose between for this call. A call without a member is not
looked up: what it lists is the worker's. -/
def choices : Finset String :=
  if call.member text = "" then call.candidateIds.toFinset
  else if call.receiver text ≠ "" then
    match receiverVariable text reg call with
    | some v =>
      match implementerMembers text reg call v with
      | [] => (symbolIds (typeMembers text reg call v)).toFinset
      | hits => (symbolIds (hits.map Prod.snd)).toFinset
    | none => ∅
  else
    match localCandidates text reg call with
    | [] =>
      match publicCandidates text reg call with
      | [] => (symbolIds ((reg.anyByName text (call.calleeKey text)).map Prod.snd)).toFinset
      | publics => (symbolIds (publics.map Prod.snd)).toFinset
    | locals => (symbolIds (narrow id call.calleeArity locals)).toFinset

/-- A name lookup resolved the call: by its status, or because the worker bound nothing. -/
def ResolvedByName (result : CallEdge) : Prop :=
  call.member text ≠ "" ∧ (result.resolutionStatus = "name_resolved" ∨
    result.resolutionStatus = "asg_resolved" ∧ call.bound = false)

/-- What resolution promises of a call and what it made of it. -/
structure CallSound (result : CallEdge) : Prop where
  bound_iff : result.bound = true ↔ result.resolutionStatus ∈ resolvedStatuses
  ambiguous : result.resolutionStatus = "ambiguous" →
    result.bound = false ∧ result.candidateIds.toFinset = choices text reg call ∧
      2 ≤ (choices text reg call).card
  visible : ResolvedByName text call result →
    ∀ kf ∈ reg.registered, result.calleeId = some kf.2.symbolId → kf.2.isPrivate = true →
      kf.1 = text.norm (call.callerModule text)

end Promise

/-- **What resolution promises of a run.** -/
def CallsSound (functions : List FunctionDef) (calls : List CallEdge)
    (payloads : List Payload) : Prop :=
  ∃ results counts, resolveVb6Calls text functions calls payloads = .ok (results, counts) ∧
    (counts.map Prod.snd).sum = calls.length ∧
    List.Forall₂ (CallSound text (fromPayloads text payloads)) calls results

/-! ## The condition -/

section Condition

variable (reg : Registry) (call : CallEdge)

/-- A procedure has a symbol that no private procedure of another module shares. -/
def Identifies (key : String) (fn : FunctionDef) : Prop :=
  fn.symbolId ≠ "" ∧ ∀ kf ∈ reg.registered, kf.2.symbolId = fn.symbolId → kf ≠ (key, fn) →
    kf.2.isPrivate = true → kf.1 = text.norm (call.callerModule text)

/-- A target of a lookup that keeps the worker's binding: where the caller cannot see it, the worker
bound nothing; else the worker bound the call or the target's symbol is its own. -/
def TargetCovered (hidden : Bool) (key : String) (target : FunctionDef) : Prop :=
  if hidden = true then call.bound = false
  else call.bound = true ∨ Identifies text reg call key target

/-- What the call lists is what it cannot choose between, and more than one symbol. -/
def ListCovered (listed : List String) : Prop :=
  listed.toFinset = choices text reg call ∧ 2 ≤ (choices text reg call).card

/-- A call without a member keeps what the worker wrote. -/
def WorkerCovered : Prop :=
  (call.bound = true ↔ call.resolutionStatus ∈ resolvedStatuses) ∧
    (call.resolutionStatus = "ambiguous" →
      call.bound = false ∧ 2 ≤ call.candidateIds.toFinset.card)

def MeCovered : Prop :=
  match reg.qualifiedCandidates text (call.callerModule text) (call.member text) with
  | target :: _ => TargetCovered text reg call false (text.norm (call.callerModule text)) target
  | [] => call.bound = false

def InModuleCovered (module : ModuleInfo) : Prop :=
  match module.functionsNamed text (call.member text) with
  | target :: _ =>
    TargetCovered text reg call
      (target.isPrivate && text.norm (call.receiver text) ≠ text.norm (call.callerModule text))
      (text.norm (call.receiver text)) target
  | [] => call.bound = false

/-- Several symbols are told apart or listed; a single one has to be the caller's to see. -/
def TypedCovered (v : VariableInfo) : Prop :=
  match implementerMembers text reg call v with
  | hit :: hits =>
    (symbolIds (hit.2 :: hits.map Prod.snd)).length = 1 →
      if hit.2.isPrivate = true then call.bound = false
      else Identifies text reg call hit.1 hit.2
  | [] =>
    match typeMembers text reg call v with
    | target :: fns =>
      (symbolIds (target :: fns)).length = 1 →
        TargetCovered text reg call target.isPrivate (v.typeKey text) target
    | [] => True

def ReceiverCovered : Prop :=
  let receiverKey := text.norm (call.receiver text)
  if receiverKey = "me" then MeCovered text reg call
  else
    match reg.getModule receiverKey with
    | some module => InModuleCovered text reg call module
    | none =>
      if intrinsicObjects.contains receiverKey = true then call.bound = false
      else ∀ v, receiverVariable text reg call = some v → v.lateBound text = false →
        TypedCovered text reg call v

/-- Several procedures of the caller's module, none bound by the worker, are told apart by arity or
all of them are choices. -/
def LocalCovered (locals : List FunctionDef) : Prop :=
  let key := text.norm (call.callerModule text)
  (call.bound = true ∧ call.calleeId.any (symbolIds locals).contains = true) ∨
    match locals with
    | [fn] => Identifies text reg call key fn
    | _ => call.bound = true ∨
      match call.calleeArity.map fun argCount => byArity id argCount locals with
      | some [fn] => Identifies text reg call key fn
      | _ => ListCovered text reg call (symbolIds locals)

def GlobalCovered : Prop :=
  let anyCandidates := reg.anyByName text (call.calleeKey text)
  match publicCandidates text reg call with
  | [kf] => Identifies text reg call kf.1 kf.2
  | publics =>
    if anyCandidates.length > 1 ∨ publics.length > 1 then
      ListCovered text reg call (anyCandidates.map (·.2.symbolId))
    else call.bound = false

/-- **The calls that resolution settles as it promises.** -/
def CallCovered : Prop :=
  if call.member text = "" then WorkerCovered call
  else if call.isDictionary = true ∨ startsWith call.calleeName "." = true ∧ call.bound = true
  then True
  else if call.receiver text ≠ "" then ReceiverCovered text reg call
  else
    match localCandidates text reg call with
    | fn :: fns => LocalCovered text reg call (fn :: fns)
    | [] => GlobalCovered text reg call

end Condition

/-! ## The ways an exit writes -/

section Writes

variable {text} {reg : Registry} {call : CallEdge}

/-- A status that is neither resolved nor ambiguous. -/
def Unsettled (status : String) : Prop := status ∉ resolvedStatuses ∧ status ≠ "ambiguous"

theorem unsettled_external : Unsettled "external" := by simp [Unsettled]

theorem unsettled_unresolved : Unsettled "unresolved" := by simp [Unsettled]

theorem unsettled_lateBound : Unsettled "late_bound" := by simp [Unsettled]

theorem ResolvedByName.resolved {result : CallEdge} (h : ResolvedByName text call result) :
    result.resolutionStatus ∈ resolvedStatuses := by
  rcases h.2 with hnamed | ⟨hasg, -⟩
  · simp [hnamed]
  · simp [hasg]

/-- An exit that only writes such a status keeps the worker's binding: it is sound when there is
none. -/
theorem kept_iff {status : String} (h : Unsettled status) :
    CallSound text reg call { call with resolutionStatus := status } ↔ call.bound = false := by
  constructor
  · intro hsound
    by_contra hbound
    exact h.1 (hsound.bound_iff.mp (by simpa using hbound))
  · intro hbound
    refine ⟨?_, fun hambiguous => absurd hambiguous h.2, fun hname => absurd hname.resolved h.1⟩
    simp only [CallEdge.bound_status, hbound, Bool.false_eq_true, false_iff]
    exact h.1

/-- An exit that clears the binding and writes such a status. -/
theorem dropped_sound {status : String} (h : Unsettled status) :
    CallSound text reg call { call with calleeId := none, resolutionStatus := status } := by
  refine ⟨?_, fun hambiguous => absurd hambiguous h.2, fun hname => absurd hname.resolved h.1⟩
  simp only [CallEdge.bound, Bool.false_eq_true, false_iff]
  exact h.1

/-- An exit that trusts the worker's binding. -/
theorem trusted_sound (hbound : call.bound = true) :
    CallSound text reg call { call with resolutionStatus := "asg_resolved" } := by
  refine ⟨by simp [hbound], fun hambiguous => by simp at hambiguous, ?_⟩
  rintro ⟨-, hname⟩
  simp [hbound] at hname

theorem identifies_iff {key : String} {fn : FunctionDef}
    (hsees : fn.isPrivate = true → key = text.norm (call.callerModule text)) :
    Identifies text reg call key fn ↔ fn.symbolId ≠ "" ∧
      ∀ kf ∈ reg.registered, some fn.symbolId = some kf.2.symbolId → kf.2.isPrivate = true →
        kf.1 = text.norm (call.callerModule text) := by
  constructor
  · rintro ⟨hid, hothers⟩
    refine ⟨hid, fun kf hkf hsame hprivate => ?_⟩
    by_cases hself : kf = (key, fn)
    · rw [hself] at hprivate ⊢
      exact hsees hprivate
    · exact hothers kf hkf (Option.some.inj hsame).symm hself hprivate
  · rintro ⟨hid, hall⟩
    exact ⟨hid, fun kf hkf hsame _ hprivate => hall kf hkf (by rw [hsame]) hprivate⟩

/-- An exit that binds the call to the procedure a lookup found. -/
theorem bind_iff {key : String} {fn : FunctionDef} {status : String}
    (hsees : fn.isPrivate = true → key = text.norm (call.callerModule text))
    (hname : ResolvedByName text call { call with resolutionStatus := status }) :
    CallSound text reg call
        { call with calleeId := some fn.symbolId, resolutionStatus := status } ↔
      Identifies text reg call key fn := by
  rw [identifies_iff hsees]
  have hresolved := hname.resolved
  constructor
  · intro hsound
    refine ⟨?_, hsound.visible hname⟩
    simpa [CallEdge.bound] using hsound.bound_iff.mpr hresolved
  · rintro ⟨hid, hall⟩
    refine ⟨⟨fun _ => hresolved, fun _ => by simpa [CallEdge.bound] using hid⟩, ?_, fun _ => hall⟩
    rintro rfl
    simp at hresolved

/-- An exit that resolves a name. -/
theorem named_iff {key : String} {fn : FunctionDef} (hmember : call.member text ≠ "")
    (hsees : fn.isPrivate = true → key = text.norm (call.callerModule text)) :
    CallSound text reg call
        { call with calleeId := some fn.symbolId, resolutionStatus := "name_resolved" } ↔
      Identifies text reg call key fn :=
  bind_iff hsees ⟨hmember, Or.inl rfl⟩

/-- An exit that binds a call the worker left unbound. -/
theorem target_iff {key : String} {fn : FunctionDef} (hmember : call.member text ≠ "")
    (hsees : fn.isPrivate = true → key = text.norm (call.callerModule text)) :
    CallSound text reg call
        { call with calleeId := call.calleeOr fn.symbolId, resolutionStatus := "asg_resolved" } ↔
      call.bound = true ∨ Identifies text reg call key fn := by
  cases hbound : call.bound with
  | true => simpa [CallEdge.calleeOr, hbound] using trusted_sound hbound
  | false =>
    have hbind : CallSound text reg call
        { call with calleeId := some fn.symbolId, resolutionStatus := "asg_resolved" } ↔
          Identifies text reg call key fn := bind_iff hsees ⟨hmember, Or.inr ⟨rfl, hbound⟩⟩
    simpa [CallEdge.calleeOr, hbound] using hbind

/-- An exit that clears the binding and lists candidates. -/
theorem ambiguous_iff {listed : List String} :
    CallSound text reg call { call with
        calleeId := none, candidateIds := listed, resolutionStatus := "ambiguous" } ↔
      ListCovered text reg call listed := by
  constructor
  · exact fun hsound => (hsound.ambiguous rfl).2
  · intro hlist
    exact ⟨by simp [CallEdge.bound], fun _ => ⟨rfl, hlist⟩, fun _ => by simp⟩

end Writes

/-! ## The blocks of the resolver -/

section Blocks

variable {text} {reg : Registry} {call : CallEdge}

theorem targetCovered_iff {hidden : Bool} {key : String} {target : FunctionDef}
    (hmember : call.member text ≠ "")
    (hsees : hidden = false → target.isPrivate = true →
      key = text.norm (call.callerModule text)) :
    CallSound text reg call
        (if hidden then { call with resolutionStatus := "unresolved" }
        else { call with
          calleeId := call.calleeOr target.symbolId, resolutionStatus := "asg_resolved" }) ↔
      TargetCovered text reg call hidden key target := by
  unfold TargetCovered
  cases hidden with
  | true => simpa using kept_iff unsettled_unresolved
  | false => simpa using target_iff hmember (hsees rfl)

theorem resolveMe_iff (hmember : call.member text ≠ "") :
    CallSound text reg call (resolveMe text reg call) ↔ MeCovered text reg call := by
  unfold resolveMe MeCovered
  cases reg.qualifiedCandidates text (call.callerModule text) (call.member text) with
  | nil => exact kept_iff unsettled_external
  | cons target fns =>
    simpa [TargetCovered] using @target_iff text reg call _ target hmember fun _ => rfl

theorem resolveInModule_iff (hmember : call.member text ≠ "") (module : ModuleInfo) :
    CallSound text reg call (resolveInModule text call module) ↔
      InModuleCovered text reg call module := by
  unfold resolveInModule InModuleCovered
  cases module.functionsNamed text (call.member text) with
  | nil =>
    dsimp only
    split
    · exact kept_iff unsettled_external
    · exact kept_iff unsettled_unresolved
  | cons target fns =>
    refine targetCovered_iff hmember fun hhidden hprivate => ?_
    simpa [hprivate] using hhidden

/-- Several symbols are several choices. -/
theorem two_le_symbolIds {fns : List FunctionDef} {target : FunctionDef}
    (h : (symbolIds (target :: fns)).length ≠ 1) :
    2 ≤ (symbolIds (target :: fns)).toFinset.card := by
  have hcard : (symbolIds (target :: fns)).toFinset.card = (symbolIds (target :: fns)).length :=
    List.toFinset_card_of_nodup (List.nodup_dedup _)
  have hpos : 0 < (symbolIds (target :: fns)).length := by
    refine List.length_pos_of_mem (a := target.symbolId) ?_
    simp [symbolIds]
  omega

theorem toFinset_sorted (ids : List String) : (sorted ids).toFinset = ids.toFinset :=
  List.toFinset_eq_of_perm _ _ (List.mergeSort_perm _ _)

theorem listed_sound {fns : List FunctionDef} {target : FunctionDef}
    (hchoices : choices text reg call = (symbolIds (target :: fns)).toFinset)
    (h : (symbolIds (target :: fns)).length ≠ 1) :
    CallSound text reg call { call with
      calleeId := none, candidateIds := sorted (symbolIds (target :: fns)),
      resolutionStatus := "ambiguous" } := by
  refine ambiguous_iff.mpr ⟨?_, ?_⟩
  · rw [toFinset_sorted, hchoices]
  · rw [hchoices]
    exact two_le_symbolIds h

theorem resolveImplementers_iff {hit : String × FunctionDef} {fns : List FunctionDef}
    (hmember : call.member text ≠ "")
    (hchoices : choices text reg call = (symbolIds (hit.2 :: fns)).toFinset) :
    CallSound text reg call (resolveImplementers call hit.2 fns) ↔
      ((symbolIds (hit.2 :: fns)).length = 1 →
        if hit.2.isPrivate = true then call.bound = false
        else Identifies text reg call hit.1 hit.2) := by
  unfold resolveImplementers
  by_cases hone : (symbolIds (hit.2 :: fns)).length = 1
  · simp only [hone, if_true, forall_const]
    cases hprivate : hit.2.isPrivate with
    | true => simpa using kept_iff unsettled_unresolved
    | false => simpa using named_iff hmember fun h => absurd (hprivate.symm.trans h) (by decide)
  · simp only [hone, if_false, IsEmpty.forall_iff, iff_true]
    exact listed_sound hchoices hone

theorem resolveTypeMember_iff {key : String} {target : FunctionDef} {fns : List FunctionDef}
    (hmember : call.member text ≠ "")
    (hchoices : choices text reg call = (symbolIds (target :: fns)).toFinset) :
    CallSound text reg call (resolveTypeMember call target fns) ↔
      ((symbolIds (target :: fns)).length = 1 →
        TargetCovered text reg call target.isPrivate key target) := by
  unfold resolveTypeMember
  by_cases hone : (symbolIds (target :: fns)).length = 1
  · simp only [hone, if_true, forall_const]
    exact targetCovered_iff hmember fun hseen hprivate =>
      absurd (hseen.symm.trans hprivate) (by decide)
  · simp only [hone, if_false, IsEmpty.forall_iff, iff_true]
    split
    next hbound => exact trusted_sound (Bool.and_eq_true_iff.mp hbound).1
    next => exact listed_sound hchoices hone

theorem resolveBare_sound (found : Option VariableInfo) :
    CallSound text reg call (resolveBare text call found) := by
  unfold resolveBare
  split
  next hbound => exact trusted_sound hbound
  next hbound =>
    have hfree : call.bound = false := by simpa using hbound
    split
    · exact (kept_iff unsettled_lateBound).mpr hfree
    · exact (kept_iff unsettled_unresolved).mpr hfree

theorem resolveTyped_iff {v : VariableInfo} (hmember : call.member text ≠ "")
    (hreceiver : call.receiver text ≠ "") (hv : receiverVariable text reg call = some v) :
    CallSound text reg call (resolveTyped text reg call v) ↔ TypedCovered text reg call v := by
  unfold resolveTyped TypedCovered
  cases hhits : implementerMembers text reg call v with
  | cons hit hits =>
    refine resolveImplementers_iff hmember ?_
    simp [choices, hmember, hreceiver, hv, hhits]
  | nil =>
    cases htype : typeMembers text reg call v with
    | cons target fns =>
      refine resolveTypeMember_iff hmember ?_
      simp [choices, hmember, hreceiver, hv, hhits, htype]
    | nil => simpa using resolveBare_sound (some v)

theorem resolveReceiver_iff (hmember : call.member text ≠ "")
    (hreceiver : call.receiver text ≠ "") :
    CallSound text reg call (resolveReceiver text reg call) ↔ ReceiverCovered text reg call := by
  unfold resolveReceiver ReceiverCovered
  dsimp only
  split
  · exact resolveMe_iff hmember
  · cases reg.getModule (text.norm (call.receiver text)) with
    | some module => exact resolveInModule_iff hmember module
    | none =>
      dsimp only
      split
      · exact kept_iff unsettled_external
      · cases hv : receiverVariable text reg call with
        | none => simpa using resolveBare_sound none
        | some v =>
          cases hlate : v.lateBound text with
          | true => simpa [hlate] using resolveBare_sound (some v)
          | false => simpa [hlate] using resolveTyped_iff hmember hreceiver hv

theorem resolveLocal_iff {locals : List FunctionDef} (hmember : call.member text ≠ "") :
    CallSound text reg call (resolveLocal call locals) ↔ LocalCovered text reg call locals := by
  unfold resolveLocal LocalCovered
  by_cases hown : call.bound = true ∧ call.calleeId.any (symbolIds locals).contains = true
  · simp only [hown, Bool.and_self, if_true, and_self, true_or, iff_true]
    exact trusted_sound hown.1
  · rw [if_neg (by simpa using hown)]
    simp only [hown, false_or]
    -- one local, several of which the worker bound one, or several told apart by arity
    split
    · exact named_iff hmember fun _ => rfl
    · cases hbound : call.bound with
      | true => simpa using trusted_sound hbound
      | false =>
        simp only [Bool.false_eq_true, if_false, false_or]
        generalize (call.calleeArity.map fun argCount => byArity id argCount locals) = hits
        rcases hits with _ | _ | ⟨fn, _ | ⟨fn', fns⟩⟩
        · exact ambiguous_iff
        · exact ambiguous_iff
        · exact named_iff hmember fun _ => rfl
        · exact ambiguous_iff

theorem mem_of_mem_narrow {α : Type} {fn : α → FunctionDef} {arity : Option Int} {rows : List α}
    {r : α} (h : r ∈ narrow fn arity rows) : r ∈ rows := by
  unfold narrow at h
  cases arity with
  | none => exact h
  | some argCount =>
    dsimp only at h
    split at h
    · exact h
    · unfold byArity at h
      dsimp only at h
      split at h
      · exact List.mem_of_mem_filter h
      · exact List.mem_of_mem_filter h

theorem publicCandidates_public {kf : String × FunctionDef}
    (h : kf ∈ publicCandidates text reg call) : kf.2.isPrivate = false :=
  publicByName_public text (mem_of_mem_narrow h)

theorem resolveGlobal_iff (hmember : call.member text ≠ "") :
    CallSound text reg call (resolveGlobal text reg call) ↔ GlobalCovered text reg call := by
  unfold resolveGlobal GlobalCovered
  have hpublic : ∀ kf ∈ publicCandidates text reg call, kf.2.isPrivate = false :=
    fun _ => publicCandidates_public
  revert hpublic
  generalize publicCandidates text reg call = publics
  intro hpublic
  match publics with
  | [kf] =>
    have hseen := hpublic kf List.mem_cons_self
    exact named_iff hmember fun hprivate => absurd (hseen.symm.trans hprivate) (by decide)
  | [] | _ :: _ :: _ =>
    simp only [Bool.or_eq_true, decide_eq_true_eq]
    split
    · exact ambiguous_iff
    · split
      · exact kept_iff unsettled_external
      · split
        · exact kept_iff unsettled_external
        · exact kept_iff unsettled_unresolved

theorem resolveDictionary_sound :
    CallSound text reg call (resolveDictionary text reg call) := by
  unfold resolveDictionary
  split
  · exact dropped_sound unsettled_lateBound
  · exact dropped_sound unsettled_external

theorem worker_iff (hmember : call.member text = "") :
    CallSound text reg call { call with resolutionStatus :=
        if call.resolutionStatus = "" then "unresolved" else call.resolutionStatus } ↔
      WorkerCovered call := by
  have hchoices : choices text reg call = call.candidateIds.toFinset := by simp [choices, hmember]
  by_cases hempty : call.resolutionStatus = ""
  · rw [if_pos hempty, kept_iff unsettled_unresolved]
    simp [WorkerCovered, hempty]
  · rw [if_neg hempty]
    constructor
    · intro hsound
      refine ⟨hsound.bound_iff, fun h => ?_⟩
      obtain ⟨hfree, -, hseveral⟩ := hsound.ambiguous h
      exact ⟨hfree, hchoices ▸ hseveral⟩
    · rintro ⟨hbound, hambiguous⟩
      refine ⟨hbound, fun h => ⟨(hambiguous h).1, hchoices.symm, ?_⟩, fun hname => ?_⟩
      · exact hchoices ▸ (hambiguous h).2
      · exact absurd hmember hname.1

/-- **One call.** What the resolver makes of a call is sound exactly when the call is covered. -/
theorem resolveCall_iff :
    CallSound text reg call (resolveCall text reg call) ↔ CallCovered text reg call := by
  unfold resolveCall CallCovered
  by_cases hmember : call.member text = ""
  · simpa [hmember] using worker_iff hmember
  · simp only [hmember, if_false]
    by_cases hdictionary : call.isDictionary = true
    · simpa [hdictionary] using resolveDictionary_sound
    · by_cases hwith : startsWith call.calleeName "." = true ∧ call.bound = true
      · simpa [hdictionary, hwith] using trusted_sound hwith.2
      · rw [if_neg hdictionary, if_neg (by simpa using hwith),
          if_neg (not_or.mpr ⟨hdictionary, hwith⟩)]
        split
        · exact resolveReceiver_iff hmember (by assumption)
        · cases localCandidates text reg call with
          | nil => exact resolveGlobal_iff hmember
          | cons fn fns => exact resolveLocal_iff hmember

end Blocks

/-! ## The run -/

/-- The text methods on ASCII texts. -/
def sampleText : Text where
  lower text := String.ofList (text.toList.map Char.toLower)
  digit := Char.isDigit

/-- `Private Sub HelperSub()` in `modUtil.bas`. -/
def sampleHelper : FunctionDef where
  symbolId := "modUtil.HelperSub/0@modUtil.bas"
  name := "HelperSub"
  arity := 0
  moduleName := "modUtil"
  isPrivate := true
  minArity := 0
  hasOptionalArgs := false
  hasParamarray := false

def samplePayload : Payload where
  filePath := "modUtil.bas"
  functions := [sampleHelper]
  predeclaredId := ""
  implements := []
  declares := []
  variableRows := []

/-- `HelperSub`, called in `modMain.DoWork`, as the worker binds it. -/
def sampleCall : CallEdge where
  callerId := "modMain.DoWork/0@modMain.bas"
  callerScope := "modMain"
  calleeName := "HelperSub"
  calleeId := some "modUtil.HelperSub/0@modUtil.bas"
  calleeArity := some 0
  callType := ""
  resolutionStatus := ""
  candidateIds := []
  calleeMember := "HelperSub"

end CortexHarness.Vb6
