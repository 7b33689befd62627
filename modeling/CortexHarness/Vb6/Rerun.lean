import CortexHarness.Vb6.Resolver

/-!
# Resolving VB6 calls a second time

The pass writes the field it reads as the worker's binding, so that a second run trusts what the
first one looked up by name. Every exit comes to the same a second time (`resolveReceiver_again`,
`resolveGlobal_again`), but for the one of the caller's own module (`resolveLocal_again`), and
but for a name with a leading dot, which is not looked up again once it is bound.

* `Rebound` is the call that a second run labels anew: the first one bound it by its name.

Result: **`resolveCall_again_iff`**.
-/

namespace CortexHarness.Vb6

variable (text : Text)

section Conditions

variable (reg : Registry) (call : CallEdge)

/-- A call with a leading dot, of a `With` block. -/
def CallEdge.dotted : Bool := startsWith call.calleeName "."

/-- The binding of the call is one of these procedures. -/
def BoundAmong (locals : List FunctionDef) : Prop :=
  (call.bound && call.calleeId.any (symbolIds locals).contains) = true

/-- The one procedure of the name in the caller's module, or the one that the arity picks for a
call that is not bound. -/
def PickedLocally (locals : List FunctionDef) (fn : FunctionDef) : Prop :=
  locals = [fn] ∨ call.bound = false ∧ locals.length ≠ 1 ∧
    ∃ argCount, call.calleeArity = some argCount ∧ byArity id argCount locals = [fn]

/-- The caller's module has a procedure to pick that the call is not bound to. -/
def NamedLocally (locals : List FunctionDef) : Prop :=
  ¬ BoundAmong call locals ∧ ∃ fn, PickedLocally call locals fn ∧ fn.symbolId ≠ ""

/-- One public procedure has the name. -/
def NamedGlobally : Prop :=
  ∃ kf, publicCandidates text reg call = [kf] ∧ kf.2.symbolId ≠ ""

/-- The implementers of the type of `v` have one member of the name, and it is not private. -/
def NamedIn (v : VariableInfo) : Prop :=
  ∃ hit hits, implementerMembers text reg call v = hit :: hits ∧
    (symbolIds (hit.2 :: hits.map Prod.snd)).length = 1 ∧ hit.2.isPrivate = false ∧
    hit.2.symbolId ≠ ""

/-- The receiver is a variable whose type is an interface with one such member. -/
def NamedByImplementer : Prop :=
  text.norm (call.receiver text) ≠ "me" ∧ reg.getModule (text.norm (call.receiver text)) = none ∧
    intrinsicObjects.contains (text.norm (call.receiver text)) = false ∧
    ∃ v, receiverVariable text reg call = some v ∧ v.lateBound text = false ∧
      NamedIn text reg call v

/-- **A call that the first run binds by its name**, and the second one takes for the worker's. -/
def Rebound : Prop :=
  call.member text ≠ "" ∧ call.isDictionary = false ∧ (call.dotted && call.bound) = false ∧
    if call.receiver text ≠ "" then call.dotted = true ∧ NamedByImplementer text reg call
    else
      match localCandidates text reg call with
      | [] => call.dotted = true ∧ NamedGlobally text reg call
      | locals => NamedLocally call locals

end Conditions

/-! ## What the exits ask and what they write -/

variable {text : Text} {reg : Registry} {call call' : CallEdge}

/-- The call without the three fields that an exit writes. -/
def CallEdge.asked (call : CallEdge) : CallEdge :=
  { call with calleeId := none, candidateIds := [], resolutionStatus := "" }

/-- What reads none of the three is the same of calls that ask the same. -/
theorem of_asked {β : Type} (f : CallEdge → β) (hf : ∀ c : CallEdge, f c.asked = f c)
    (h : call'.asked = call.asked) : f call' = f call := by
  rw [← hf call', h, hf]

section Asked

variable (h : call'.asked = call.asked)

include h

theorem member_of_asked : call'.member text = call.member text :=
  of_asked (CallEdge.member text) (fun _ => rfl) h

theorem receiver_of_asked : call'.receiver text = call.receiver text :=
  of_asked (CallEdge.receiver text) (fun _ => rfl) h

theorem calleeKey_of_asked : call'.calleeKey text = call.calleeKey text :=
  of_asked (CallEdge.calleeKey text) (fun _ => rfl) h

theorem callerModule_of_asked : call'.callerModule text = call.callerModule text :=
  of_asked (CallEdge.callerModule text) (fun _ => rfl) h

theorem receiverVariable_of_asked :
    receiverVariable text reg call' = receiverVariable text reg call :=
  of_asked (receiverVariable text reg) (fun _ => rfl) h

theorem localCandidates_of_asked :
    localCandidates text reg call' = localCandidates text reg call :=
  of_asked (localCandidates text reg) (fun _ => rfl) h

end Asked

section Exits

variable (module : ModuleInfo) (target : FunctionDef) (fns : List FunctionDef)
  (found : Option VariableInfo) (v : VariableInfo)

theorem resolveMe_asked : (resolveMe text reg call).asked = call.asked := by
  unfold resolveMe
  split <;> rfl

theorem resolveInModule_asked : (resolveInModule text call module).asked = call.asked := by
  unfold resolveInModule
  split <;> split <;> rfl

theorem resolveImplementers_asked : (resolveImplementers call target fns).asked = call.asked := by
  unfold resolveImplementers
  dsimp only
  split
  · split <;> rfl
  · rfl

theorem resolveTypeMember_asked : (resolveTypeMember call target fns).asked = call.asked := by
  unfold resolveTypeMember
  dsimp only
  split
  · split <;> rfl
  · split <;> rfl

theorem resolveBare_asked : (resolveBare text call found).asked = call.asked := by
  unfold resolveBare
  split
  · rfl
  · split <;> rfl

theorem resolveTyped_asked : (resolveTyped text reg call v).asked = call.asked := by
  unfold resolveTyped
  split
  · exact resolveImplementers_asked _ _
  · split
    · exact resolveTypeMember_asked _ _
    · exact resolveBare_asked _

theorem resolveReceiver_asked : (resolveReceiver text reg call).asked = call.asked := by
  unfold resolveReceiver
  dsimp only
  split
  · exact resolveMe_asked
  · split
    · exact resolveInModule_asked _
    · split
      · rfl
      · split
        · split
          · exact resolveBare_asked _
          · exact resolveTyped_asked _
        · exact resolveBare_asked _

theorem resolveLocal_asked : (resolveLocal call fns).asked = call.asked := by
  unfold resolveLocal
  split
  · rfl
  · split
    · rfl
    · split
      · rfl
      · split <;> rfl

theorem resolveGlobal_asked : (resolveGlobal text reg call).asked = call.asked := by
  unfold resolveGlobal
  dsimp only
  split
  · rfl
  · split
    · rfl
    · split
      · rfl
      · split <;> rfl

end Exits

/-! ## The exits a second time -/

/-- What an exit makes of calls that ask the same comes to the same a second time if what it
writes does. -/
theorem again_of_write (exit write : CallEdge → CallEdge)
    (hexit : ∀ c : CallEdge, c.asked = call.asked → exit c = write c)
    (hasked : (write call).asked = call.asked) (hwrite : write (write call) = write call) :
    exit (exit call) = exit call := by
  rw [hexit call rfl, hexit _ hasked, hwrite]

theorem kept_again (exit : CallEdge → CallEdge) (status : String)
    (hexit : ∀ c : CallEdge, c.asked = call.asked →
      exit c = { c with resolutionStatus := status }) :
    exit (exit call) = exit call :=
  again_of_write exit (fun c => { c with resolutionStatus := status }) hexit rfl rfl

theorem calleeOr_again (id : String) (call : CallEdge) (status : String) :
    { call with calleeId := call.calleeOr id, resolutionStatus := status }.calleeOr id =
      call.calleeOr id := by
  unfold CallEdge.calleeOr
  cases hbound : call.bound with
  | true => simp [hbound]
  | false => simp

theorem target_again (exit : CallEdge → CallEdge) (id status : String)
    (hexit : ∀ c : CallEdge, c.asked = call.asked →
      exit c = { c with calleeId := c.calleeOr id, resolutionStatus := status }) :
    exit (exit call) = exit call := by
  refine again_of_write exit
    (fun c => { c with calleeId := c.calleeOr id, resolutionStatus := status }) hexit rfl ?_
  simp only [calleeOr_again]

theorem resolveMe_again :
    resolveMe text reg (resolveMe text reg call) = resolveMe text reg call := by
  cases htarget : reg.qualifiedCandidates text (call.callerModule text) (call.member text) with
  | nil =>
    refine kept_again (resolveMe text reg) "external" fun c hc => ?_
    simp only [resolveMe, callerModule_of_asked hc, member_of_asked hc, htarget]
  | cons target _ =>
    refine target_again (resolveMe text reg) target.symbolId "asg_resolved" fun c hc => ?_
    simp only [resolveMe, callerModule_of_asked hc, member_of_asked hc, htarget]

theorem resolveInModule_again (module : ModuleInfo) :
    resolveInModule text (resolveInModule text call module) module =
      resolveInModule text call module := by
  cases htarget : module.functionsNamed text (call.member text) with
  | nil =>
    by_cases hform : (([.frm, .ctl, .pag].contains module.kind || module.predeclared) &&
        formIntrinsicMembers.contains (call.calleeKey text)) = true
    · refine kept_again (resolveInModule text · module) "external" fun c hc => ?_
      simp only [resolveInModule, member_of_asked hc, calleeKey_of_asked hc, htarget, hform,
        if_true]
    · refine kept_again (resolveInModule text · module) "unresolved" fun c hc => ?_
      simp only [resolveInModule, member_of_asked hc, calleeKey_of_asked hc, htarget, hform]
      rfl
  | cons target _ =>
    by_cases hhidden : (target.isPrivate &&
        text.norm (call.receiver text) ≠ text.norm (call.callerModule text)) = true
    · refine kept_again (resolveInModule text · module) "unresolved" fun c hc => ?_
      simp only [resolveInModule, member_of_asked hc, receiver_of_asked hc,
        callerModule_of_asked hc, htarget, hhidden, if_true]
    · refine target_again (resolveInModule text · module) target.symbolId "asg_resolved"
        fun c hc => ?_
      simp only [resolveInModule, member_of_asked hc, receiver_of_asked hc,
        callerModule_of_asked hc, htarget, hhidden]
      rfl

theorem resolveImplementers_again (target : FunctionDef) (fns : List FunctionDef) :
    resolveImplementers (resolveImplementers call target fns) target fns =
      resolveImplementers call target fns := by
  unfold resolveImplementers
  by_cases hone : (symbolIds (target :: fns)).length = 1
  · cases hprivate : target.isPrivate <;> simp [hone]
  · simp [hone]

theorem resolveTypeMember_again (target : FunctionDef) (fns : List FunctionDef) :
    resolveTypeMember (resolveTypeMember call target fns) target fns =
      resolveTypeMember call target fns := by
  unfold resolveTypeMember
  by_cases hone : (symbolIds (target :: fns)).length = 1
  · cases hprivate : target.isPrivate <;> simp [hone, calleeOr_again]
  · by_cases hown : (call.bound && call.calleeId.any (symbolIds (target :: fns)).contains) = true
    · simp only [hone, if_false, hown, if_true, CallEdge.bound_status]
    · simp only [hone, if_false, hown]
      simp [CallEdge.bound]

theorem resolveBare_again (found : Option VariableInfo) :
    resolveBare text (resolveBare text call found) found = resolveBare text call found := by
  unfold resolveBare
  by_cases hbound : call.bound = true
  · simp [hbound]
  · by_cases hlate : found.any (·.lateBound text) = true <;> simp [hbound, hlate]

theorem resolveTyped_again (v : VariableInfo) :
    resolveTyped text reg (resolveTyped text reg call v) v = resolveTyped text reg call v := by
  cases himplementers : implementerMembers text reg call v with
  | cons hit hits =>
    refine again_of_write (resolveTyped text reg · v)
      (resolveImplementers · hit.2 (hits.map Prod.snd)) (fun c hc => ?_)
      (resolveImplementers_asked _ _) (resolveImplementers_again _ _)
    have hsame := of_asked (implementerMembers text reg · v) (fun _ => rfl) hc
    simp only [resolveTyped, hsame, himplementers]
  | nil =>
    cases hmembers : typeMembers text reg call v with
    | cons target fns =>
      refine again_of_write (resolveTyped text reg · v) (resolveTypeMember · target fns)
        (fun c hc => ?_) (resolveTypeMember_asked _ _) (resolveTypeMember_again _ _)
      have hsame := of_asked (implementerMembers text reg · v) (fun _ => rfl) hc
      have hsame' := of_asked (typeMembers text reg · v) (fun _ => rfl) hc
      simp only [resolveTyped, hsame, himplementers, hsame', hmembers]
    | nil =>
      refine again_of_write (resolveTyped text reg · v) (resolveBare text · (some v))
        (fun c hc => ?_) (resolveBare_asked _) (resolveBare_again _)
      have hsame := of_asked (implementerMembers text reg · v) (fun _ => rfl) hc
      have hsame' := of_asked (typeMembers text reg · v) (fun _ => rfl) hc
      simp only [resolveTyped, hsame, himplementers, hsame', hmembers]

theorem resolveReceiver_again :
    resolveReceiver text reg (resolveReceiver text reg call) = resolveReceiver text reg call := by
  by_cases hme : text.norm (call.receiver text) = "me"
  · refine again_of_write (resolveReceiver text reg) (resolveMe text reg) (fun c hc => ?_)
      resolveMe_asked resolveMe_again
    simp only [resolveReceiver, receiver_of_asked hc, hme, if_true]
  · cases hmodule : reg.getModule (text.norm (call.receiver text)) with
    | some module =>
      refine again_of_write (resolveReceiver text reg) (resolveInModule text · module)
        (fun c hc => ?_) (resolveInModule_asked _) (resolveInModule_again _)
      simp only [resolveReceiver, receiver_of_asked hc, hme, if_false, hmodule]
    | none =>
      by_cases hintrinsic : intrinsicObjects.contains (text.norm (call.receiver text)) = true
      · refine kept_again (resolveReceiver text reg) "external" fun c hc => ?_
        simp only [resolveReceiver, receiver_of_asked hc, hme, if_false, hmodule, hintrinsic,
          if_true]
      · cases hvariable : receiverVariable text reg call with
        | none =>
          refine again_of_write (resolveReceiver text reg) (resolveBare text · none)
            (fun c hc => ?_) (resolveBare_asked _) (resolveBare_again _)
          simp only [resolveReceiver, receiver_of_asked hc, hme, hmodule, hintrinsic,
            receiverVariable_of_asked hc, hvariable, if_false]
          rfl
        | some v =>
          by_cases hlate : v.lateBound text = true
          · refine again_of_write (resolveReceiver text reg) (resolveBare text · (some v))
              (fun c hc => ?_) (resolveBare_asked _) (resolveBare_again _)
            simp only [resolveReceiver, receiver_of_asked hc, hme, hmodule, hintrinsic,
              receiverVariable_of_asked hc, hvariable, hlate, if_true, if_false]
            rfl
          · refine again_of_write (resolveReceiver text reg) (resolveTyped text reg · v)
              (fun c hc => ?_) (resolveTyped_asked _) (resolveTyped_again _)
            simp only [resolveReceiver, receiver_of_asked hc, hme, hmodule, hintrinsic,
              receiverVariable_of_asked hc, hvariable, hlate, if_false]
            rfl

/-- The project has one public procedure of the name, or the exit does the same to every call that
asks this: it lists what there is, or it leaves the binding. -/
theorem resolveGlobal_cases (text : Text) (reg : Registry) (call : CallEdge) :
    (∃ kf, publicCandidates text reg call = [kf] ∧ ∀ c : CallEdge, c.asked = call.asked →
      resolveGlobal text reg c =
        { c with calleeId := some kf.2.symbolId, resolutionStatus := "name_resolved" }) ∨
    (∀ kf, publicCandidates text reg call ≠ [kf]) ∧
      ((∃ candidates, ∀ c : CallEdge, c.asked = call.asked → resolveGlobal text reg c =
        { c with
          calleeId := none, candidateIds := candidates, resolutionStatus := "ambiguous" }) ∨
      ∃ status, status ≠ "name_resolved" ∧ ∀ c : CallEdge, c.asked = call.asked →
        resolveGlobal text reg c = { c with resolutionStatus := status }) := by
  have hpublic : ∀ c : CallEdge, c.asked = call.asked →
      publicCandidates text reg c = publicCandidates text reg call :=
    fun c => of_asked (publicCandidates text reg) fun _ => rfl
  by_cases hone : ∃ kf, publicCandidates text reg call = [kf]
  · obtain ⟨kf, hkf⟩ := hone
    refine .inl ⟨kf, hkf, fun c hc => ?_⟩
    simp only [resolveGlobal, hpublic c hc, hkf]
  · have hnone := not_exists.mp hone
    have hexit : ∀ c : CallEdge, c.asked = call.asked → resolveGlobal text reg c =
        if (reg.anyByName text (call.calleeKey text)).length > 1 ||
            (publicCandidates text reg call).length > 1 then
          { c with
            calleeId := none
            candidateIds := (reg.anyByName text (call.calleeKey text)).map (·.2.symbolId)
            resolutionStatus := "ambiguous" }
        else if reg.apiNames.contains (call.calleeKey text) then
          { c with resolutionStatus := "external" }
        else if builtinFunctions.contains (call.calleeKey text) then
          { c with resolutionStatus := "external" }
        else { c with resolutionStatus := "unresolved" } := by
      intro c hc
      simp only [resolveGlobal, hpublic c hc, calleeKey_of_asked hc]
    refine .inr ⟨hnone, ?_⟩
    split at hexit
    · exact .inl ⟨_, hexit⟩
    · split at hexit
      · exact .inr ⟨_, by decide, hexit⟩
      · split at hexit
        · exact .inr ⟨_, by decide, hexit⟩
        · exact .inr ⟨_, by decide, hexit⟩

theorem resolveGlobal_again :
    resolveGlobal text reg (resolveGlobal text reg call) = resolveGlobal text reg call := by
  obtain ⟨kf, -, hexit⟩ | ⟨-, ⟨candidates, hexit⟩ | ⟨status, -, hexit⟩⟩ :=
    resolveGlobal_cases text reg call
  · exact again_of_write (resolveGlobal text reg) _ hexit rfl rfl
  · exact again_of_write (resolveGlobal text reg) _ hexit rfl rfl
  · exact kept_again (resolveGlobal text reg) status hexit

/-! ## What says that it is trusted -/

/-- A call that, once bound, says that the binding is the worker's. -/
def CallEdge.Trusted (call : CallEdge) : Prop :=
  call.bound = true → call.resolutionStatus = "asg_resolved"

theorem trusted_free {call : CallEdge} (h : call.bound = false) : call.Trusted :=
  fun hbound => absurd (h.symm.trans hbound) (by decide)

theorem trusted_iff {call : CallEdge} :
    { call with resolutionStatus := "asg_resolved" } = call ↔
      call.resolutionStatus = "asg_resolved" := by
  constructor
  · exact fun h => (congrArg CallEdge.resolutionStatus h).symm
  · intro h
    rw [← h]

theorem trusted_named {id : String} {call : CallEdge} :
    { call with calleeId := some id, resolutionStatus := "name_resolved" }.Trusted ↔ id = "" := by
  simp [CallEdge.Trusted, CallEdge.bound]

theorem resolveMe_trusted (hfree : call.bound = false) : (resolveMe text reg call).Trusted := by
  unfold resolveMe
  split
  · exact fun _ => rfl
  · exact trusted_free hfree

theorem resolveInModule_trusted (hfree : call.bound = false) (module : ModuleInfo) :
    (resolveInModule text call module).Trusted := by
  unfold resolveInModule
  split
  · split
    · exact trusted_free hfree
    · exact fun _ => rfl
  · split
    · exact trusted_free hfree
    · exact trusted_free hfree

theorem resolveTypeMember_trusted (hfree : call.bound = false) (target : FunctionDef)
    (fns : List FunctionDef) : (resolveTypeMember call target fns).Trusted := by
  unfold resolveTypeMember
  dsimp only
  split
  · split
    · exact trusted_free hfree
    · exact fun _ => rfl
  · split
    · exact fun _ => rfl
    · exact trusted_free rfl

theorem resolveBare_trusted (found : Option VariableInfo) :
    (resolveBare text call found).Trusted := by
  unfold resolveBare
  split
  next => exact fun _ => rfl
  next hbound =>
    have hfree : call.bound = false := by simpa using hbound
    split
    · exact trusted_free hfree
    · exact trusted_free hfree

theorem resolveImplementers_trusted (hfree : call.bound = false) (target : FunctionDef)
    (fns : List FunctionDef) :
    (resolveImplementers call target fns).Trusted ↔
      ((symbolIds (target :: fns)).length = 1 → target.isPrivate = false →
        target.symbolId = "") := by
  unfold resolveImplementers
  by_cases hone : (symbolIds (target :: fns)).length = 1
  · cases hprivate : target.isPrivate with
    | true => 
      have htrusted : { call with resolutionStatus := "unresolved" }.Trusted := trusted_free hfree
      simpa [hone] using htrusted
    | false => simpa [hone] using trusted_named
  · simpa [hone] using trusted_free rfl

theorem resolveTyped_trusted (hfree : call.bound = false) (v : VariableInfo) :
    (resolveTyped text reg call v).Trusted ↔ ¬ NamedIn text reg call v := by
  unfold resolveTyped NamedIn
  cases implementerMembers text reg call v with
  | cons hit hits =>
    rw [resolveImplementers_trusted hfree]
    constructor
    · rintro hall ⟨hit', hits', hcons, hone, hpublic, hid⟩
      obtain ⟨rfl, rfl⟩ := List.cons.inj hcons
      exact hid (hall hone hpublic)
    · intro hnone hone hpublic
      by_contra hid
      exact hnone ⟨hit, hits, rfl, hone, hpublic, hid⟩
  | nil =>
    refine iff_of_true ?_ (by simp)
    dsimp only
    split
    · exact resolveTypeMember_trusted hfree _ _
    · exact resolveBare_trusted _

theorem resolveReceiver_trusted (hfree : call.bound = false) :
    (resolveReceiver text reg call).Trusted ↔ ¬ NamedByImplementer text reg call := by
  unfold resolveReceiver NamedByImplementer
  dsimp only
  by_cases hme : text.norm (call.receiver text) = "me"
  · simpa [hme] using resolveMe_trusted hfree
  · cases hmodule : reg.getModule (text.norm (call.receiver text)) with
    | some module => simpa [hme] using resolveInModule_trusted hfree module
    | none =>
      cases intrinsicObjects.contains (text.norm (call.receiver text)) with
      | true =>
        have htrusted : { call with resolutionStatus := "external" }.Trusted := trusted_free hfree
        simpa [hme] using htrusted
      | false =>
        cases receiverVariable text reg call with
        | none => simpa [hme] using resolveBare_trusted none
        | some v =>
          cases hlate : v.lateBound text with
          | true => simpa [hme, hlate] using resolveBare_trusted (some v)
          | false => simpa [hme, hlate] using resolveTyped_trusted hfree v

theorem resolveGlobal_trusted (hfree : call.bound = false) :
    (resolveGlobal text reg call).Trusted ↔ ¬ NamedGlobally text reg call := by
  unfold NamedGlobally
  obtain ⟨kf, hkf, hexit⟩ | ⟨hnone, ⟨candidates, hexit⟩ | ⟨status, -, hexit⟩⟩ :=
    resolveGlobal_cases text reg call
  · rw [hexit call rfl, trusted_named, hkf]
    constructor
    · rintro hid ⟨kf', hkf', hid'⟩
      obtain ⟨rfl, -⟩ := List.cons.inj hkf'
      exact hid' hid
    · intro hnone
      by_contra hid
      exact hnone ⟨kf, rfl, hid⟩
  · rw [hexit call rfl]
    exact iff_of_true (trusted_free rfl) fun ⟨kf, hkf, _⟩ => hnone kf hkf
  · rw [hexit call rfl]
    exact iff_of_true (trusted_free hfree) fun ⟨kf, hkf, _⟩ => hnone kf hkf

/-! ## The exit of the caller's module -/

section Local

variable {locals : List FunctionDef} {fn : FunctionDef}

theorem pickedLocally_mem (h : PickedLocally call locals fn) : fn ∈ locals := by
  rcases h with hone | ⟨-, -, argCount, -, hhits⟩
  · simp [hone]
  · have hfn : fn ∈ byArity id argCount locals := by simp [hhits]
    unfold byArity at hfn
    dsimp only at hfn
    split at hfn
    · exact List.mem_of_mem_filter hfn
    · exact List.mem_of_mem_filter hfn

theorem resolveLocal_cases (call : CallEdge) (locals : List FunctionDef) :
    (¬ NamedLocally call locals ∧ call.bound = true ∧
      resolveLocal call locals = { call with resolutionStatus := "asg_resolved" }) ∨
    (∃ fn, ¬ BoundAmong call locals ∧ PickedLocally call locals fn ∧ resolveLocal call locals =
      { call with calleeId := some fn.symbolId, resolutionStatus := "name_resolved" }) ∨
    (call.bound = false ∧ (∀ fn, ¬ PickedLocally call locals fn) ∧ resolveLocal call locals =
      { call with
        calleeId := none, candidateIds := symbolIds locals, resolutionStatus := "ambiguous" }) := by
  generalize hexit : resolveLocal call locals = result
  unfold resolveLocal at hexit
  split at hexit
  next hown =>
    exact .inl ⟨fun h => h.1 hown, (Bool.and_eq_true_iff.mp hown).1, hexit.symm⟩
  next hown =>
    split at hexit
    next fn => exact .inr (.inl ⟨fn, hown, .inl rfl, hexit.symm⟩)
    next hseveral =>
      have hlength : locals.length ≠ 1 := fun hone =>
        let ⟨fn, hfn⟩ := List.length_eq_one_iff.mp hone
        hseveral fn hfn
      split at hexit
      next hbound =>
        refine .inl ⟨?_, hbound, hexit.symm⟩
        rintro ⟨-, fn, hone | ⟨hfree, -⟩, -⟩
        · exact hseveral fn hone
        · exact absurd (hfree.symm.trans hbound) (by decide)
      next hbound =>
        have hfree : call.bound = false := by simpa using hbound
        split at hexit
        next fn hhits =>
          obtain ⟨argCount, harity, hhits⟩ := Option.map_eq_some_iff.mp hhits
          exact .inr (.inl
            ⟨fn, hown, .inr ⟨hfree, hlength, argCount, harity, hhits⟩, hexit.symm⟩)
        next hhits =>
          refine .inr (.inr ⟨hfree, ?_, hexit.symm⟩)
          rintro fn (hone | ⟨-, -, argCount, harity, hpicked⟩)
          · exact hseveral fn hone
          · exact hhits fn (by rw [harity, Option.map_some, hpicked])

/-- One procedure is picked, at most. -/
theorem pickedLocally_unique {fn' : FunctionDef} (h : PickedLocally call locals fn)
    (h' : PickedLocally call locals fn') : fn = fn' := by
  rcases h with hone | ⟨-, hlength, argCount, harity, hhits⟩
  · rcases h' with hone' | ⟨-, hlength, -⟩
    · exact (List.cons.inj (hone.symm.trans hone')).1
    · exact absurd (by simp [hone]) hlength
  · rcases h' with hone | ⟨-, -, argCount', harity', hhits'⟩
    · exact absurd (by simp [hone]) hlength
    · obtain rfl := Option.some.inj (harity.symm.trans harity')
      exact (List.cons.inj (hhits.symm.trans hhits')).1

theorem resolveLocal_trusted :
    (resolveLocal call locals).Trusted ↔ ¬ NamedLocally call locals := by
  obtain ⟨hnone, -, hexit⟩ | ⟨fn, hown, hpicked, hexit⟩ | ⟨hfree, hnone, hexit⟩ :=
    resolveLocal_cases call locals
  · rw [hexit]
    exact iff_of_true (fun _ => rfl) hnone
  · rw [hexit, trusted_named]
    constructor
    · rintro hid ⟨-, fn', hpicked', hid'⟩
      obtain rfl := pickedLocally_unique hpicked hpicked'
      exact hid' hid
    · intro hnamed
      by_contra hid
      exact hnamed ⟨hown, fn, hpicked, hid⟩
  · rw [hexit]
    exact iff_of_true (trusted_free rfl) fun ⟨_, fn, hpicked, _⟩ => hnone fn hpicked

theorem pickedLocally_of_free (hasked : call'.asked = call.asked) (hfree : call.bound = false)
    (h : PickedLocally call' locals fn) : PickedLocally call locals fn := by
  have harity := of_asked CallEdge.calleeArity (fun _ => rfl) hasked
  rcases h with hone | ⟨-, hlength, argCount, hargs, hhits⟩
  · exact .inl hone
  · exact .inr ⟨hfree, hlength, argCount, harity ▸ hargs, hhits⟩

/-- **The exit of the caller's module a second time.** It says of every binding that it is the
worker's. -/
theorem resolveLocal_again :
    resolveLocal (resolveLocal call locals) locals = resolveLocal call locals ↔
      ¬ NamedLocally call locals := by
  rw [← resolveLocal_trusted]
  obtain ⟨hnone, hbound, hexit⟩ | ⟨fn, hown, hpicked, hexit⟩ | ⟨hfree, hnone, hexit⟩ :=
    resolveLocal_cases call locals
  · have hstatus : resolveLocal { call with resolutionStatus := "asg_resolved" } locals =
        resolveLocal call locals := rfl
    rw [hexit, hstatus, hexit]
    exact iff_of_true rfl fun _ => rfl
  · rw [hexit, trusted_named]
    generalize hc : { call with
      calleeId := some fn.symbolId, resolutionStatus := "name_resolved" } = c
    have hasked : c.asked = call.asked := hc ▸ rfl
    have hbound : c.bound = decide (fn.symbolId ≠ "") := hc ▸ rfl
    constructor
    · -- a binding among the procedures is taken for the worker's
      intro hsame
      by_contra hid
      have hamong : BoundAmong c locals := by
        have hfn := List.mem_map_of_mem (f := FunctionDef.symbolId) (pickedLocally_mem hpicked)
        rw [← hc]
        simp [BoundAmong, CallEdge.bound, hid, symbolIds, List.mem_dedup.mpr hfn]
      have hagain : resolveLocal c locals = { c with resolutionStatus := "asg_resolved" } := by
        unfold resolveLocal
        exact if_pos hamong
      have hstatus := congrArg CallEdge.resolutionStatus (hsame.symm.trans hagain)
      rw [← hc] at hstatus
      simp at hstatus
    · intro hid
      have hfree : c.bound = false := by simp [hbound, hid]
      have hpicked' := pickedLocally_of_free hasked.symm hfree hpicked
      obtain ⟨-, hbound', -⟩ | ⟨fn', -, hpicked'', hagain⟩ | ⟨-, hnone, -⟩ :=
        resolveLocal_cases c locals
      · exact absurd (hfree.symm.trans hbound') (by decide)
      · obtain rfl := pickedLocally_unique hpicked' hpicked''
        rw [hagain, ← hc]
      · exact absurd hpicked' (hnone fn)
  · rw [hexit]
    refine iff_of_true ?_ (trusted_free rfl)
    generalize hc : { call with
      calleeId := none, candidateIds := symbolIds locals, resolutionStatus := "ambiguous" } = c
    have hasked : c.asked = call.asked := hc ▸ rfl
    have hfree' : c.bound = false := hc ▸ rfl
    obtain ⟨-, hbound', -⟩ | ⟨fn, -, hpicked, -⟩ | ⟨-, -, hagain⟩ := resolveLocal_cases c locals
    · exact absurd (hfree'.symm.trans hbound') (by decide)
    · exact absurd (pickedLocally_of_free hasked hfree hpicked) (hnone fn)
    · rw [hagain, ← hc]

end Local

/-! ## A call -/

theorem resolveDictionary_again :
    resolveDictionary text reg (resolveDictionary text reg call) =
      resolveDictionary text reg call := by
  refine again_of_write (resolveDictionary text reg) (fun c => { c with
    calleeId := none
    resolutionStatus :=
      if call.receiver text ≠ "" && (receiverVariable text reg call).any (·.lateBound text)
      then "late_bound" else "external" }) (fun c hc => ?_) rfl rfl
  simp only [resolveDictionary, receiver_of_asked hc, receiverVariable_of_asked hc]

section Exits

variable (hmember : call.member text ≠ "") (hdictionary : call.isDictionary = false)

include hmember hdictionary

/-- A call of a `With` block that is bound is not looked up. -/
theorem resolveCall_dotted (hdotted : call.dotted = true) (hbound : call.bound = true) :
    resolveCall text reg call = { call with resolutionStatus := "asg_resolved" } := by
  have hwith : (startsWith call.calleeName "." && call.bound) = true := by
    rw [hbound, Bool.and_true]
    exact hdotted
  rw [resolveCall, if_neg hmember, if_neg (by simp [hdictionary]), if_pos hwith]

/-- A call that is not a bound one of a `With` block is looked up. -/
theorem resolveCall_of_free (c : CallEdge) (hc : c.asked = call.asked)
    (hno : (c.dotted && c.bound) = false) :
    resolveCall text reg c =
      if call.receiver text ≠ "" then resolveReceiver text reg c
      else
        match localCandidates text reg call with
        | fn :: fns => resolveLocal c (fn :: fns)
        | [] => resolveGlobal text reg c := by
  have hdictionary' : c.isDictionary = false :=
    (of_asked CallEdge.isDictionary (fun _ => rfl) hc).trans hdictionary
  rw [resolveCall, if_neg (by rwa [member_of_asked hc]), if_neg (by simp [hdictionary']),
    if_neg (by simpa [CallEdge.dotted] using hno), receiver_of_asked hc,
    localCandidates_of_asked hc] <;> rfl

/-- Any other call goes through one exit, which comes to the same a second time for a call without
a leading dot if it does on its own, and for a call with one if it says that a binding is the
worker's. -/
theorem again_of_exit {exit : CallEdge → CallEdge}
    (hexit : ∀ c : CallEdge, c.asked = call.asked → (c.dotted && c.bound) = false →
      resolveCall text reg c = exit c)
    (hasked : (exit call).asked = call.asked) (hwith : (call.dotted && call.bound) = false) :
    resolveCall text reg (resolveCall text reg call) = resolveCall text reg call ↔
      if (call.dotted && (exit call).bound) = true then
        (exit call).resolutionStatus = "asg_resolved"
      else exit (exit call) = exit call := by
  have hdotted : (exit call).dotted = call.dotted :=
    of_asked CallEdge.dotted (fun _ => rfl) hasked
  rw [hexit call rfl hwith]
  split
  next h =>
    obtain ⟨hdot, hbound⟩ := Bool.and_eq_true_iff.mp h
    rw [resolveCall_dotted (by rwa [member_of_asked hasked])
      ((of_asked CallEdge.isDictionary (fun _ => rfl) hasked).trans hdictionary)
      (hdotted.trans hdot) hbound]
    exact trusted_iff
  next h =>
    have hno : ((exit call).dotted && (exit call).bound) = false := by
      rw [hdotted]
      simpa using h
    rw [hexit _ hasked hno]

end Exits

theorem trusted_of_bound {call : CallEdge} (h : call.bound = true) :
    call.resolutionStatus = "asg_resolved" ↔ call.Trusted :=
  ⟨fun hstatus _ => hstatus, fun htrusted => htrusted h⟩

theorem again_iff_of_dotted {call : CallEdge} {dotted : Bool} {again named : Prop} (hagain : again)
    (htrusted : dotted = true → (call.Trusted ↔ ¬ named)) :
    (if (dotted && call.bound) = true then call.resolutionStatus = "asg_resolved" else again) ↔
      ¬ (dotted = true ∧ named) := by
  split
  next h =>
    obtain ⟨hdotted, hbound⟩ := Bool.and_eq_true_iff.mp h
    rw [trusted_of_bound hbound, htrusted hdotted]
    simp [hdotted]
  next h =>
    refine iff_of_true hagain ?_
    rintro ⟨hdotted, hnamed⟩
    have hbound : call.bound = false := by simpa [hdotted] using h
    exact (htrusted hdotted).mp (trusted_free hbound) hnamed

/-- **One call a second time.** It comes to the same exactly when the first run did not bind it by
its name, in the caller's module or for a name with a leading dot. -/
theorem resolveCall_again_iff :
    resolveCall text reg (resolveCall text reg call) = resolveCall text reg call ↔
      ¬ Rebound text reg call := by
  unfold Rebound
  by_cases hmember : call.member text = ""
  · refine iff_of_true ?_ fun h => h.1 hmember
    have hexit : ∀ c : CallEdge, c.asked = call.asked → resolveCall text reg c =
        { c with resolutionStatus :=
            if c.resolutionStatus = "" then "unresolved" else c.resolutionStatus } := by
      intro c hc
      rw [resolveCall, if_pos ((member_of_asked hc).trans hmember)]
    refine again_of_write (resolveCall text reg) _ hexit rfl ?_
    by_cases hstatus : call.resolutionStatus = "" <;> simp [hstatus]
  cases hdictionary : call.isDictionary with
  | true =>
    refine iff_of_true ?_ fun h => absurd h.2.1 (by decide)
    refine again_of_write (resolveCall text reg) (resolveDictionary text reg) (fun c hc => ?_) rfl
      resolveDictionary_again
    have hsame := (of_asked CallEdge.isDictionary (fun _ => rfl) hc).trans hdictionary
    rw [resolveCall, if_neg (by rwa [member_of_asked hc]), if_pos hsame]
  | false =>
    cases hwith : call.dotted && call.bound with
    | true =>
      refine iff_of_true ?_ fun h => absurd h.2.2.1 (by decide)
      obtain ⟨hdotted, hbound⟩ := Bool.and_eq_true_iff.mp hwith
      have hexit : resolveCall text reg call = { call with resolutionStatus := "asg_resolved" } :=
        resolveCall_dotted hmember hdictionary hdotted hbound
      rw [hexit]
      exact resolveCall_dotted hmember hdictionary hdotted hbound
    | false =>
      have hlookup := @resolveCall_of_free text reg call hmember hdictionary
      have hfree : call.dotted = true → call.bound = false := by
        intro hdotted
        simpa [hdotted] using hwith
      simp only [ne_eq, hmember, not_false_eq_true, true_and]
      by_cases hreceiver : call.receiver text = ""
      · simp only [ne_eq, hreceiver, not_true_eq_false, if_false] at hlookup ⊢
        cases hlocals : localCandidates text reg call with
        | cons fn fns =>
          simp only [hlocals] at hlookup
          rw [again_of_exit hmember hdictionary hlookup (resolveLocal_asked _) hwith,
            resolveLocal_again]
          split
          next h =>
            exact (trusted_of_bound (Bool.and_eq_true_iff.mp h).2).trans resolveLocal_trusted
          next => rfl
        | nil =>
          simp only [hlocals] at hlookup
          rw [again_of_exit hmember hdictionary hlookup resolveGlobal_asked hwith]
          exact again_iff_of_dotted resolveGlobal_again fun hdotted =>
            resolveGlobal_trusted (hfree hdotted)
      · simp only [ne_eq, hreceiver, not_false_eq_true, if_true] at hlookup ⊢
        rw [again_of_exit hmember hdictionary hlookup resolveReceiver_asked hwith]
        exact again_iff_of_dotted resolveReceiver_again fun hdotted =>
          resolveReceiver_trusted (hfree hdotted)

end CortexHarness.Vb6
