import CortexHarness.Journal.NodeFirst
import CortexHarness.Journal.Consumer

/-!
# The clients of a node-first run

Runtimes and consumers crash and restart while others run, and each of their commands can meet a
state that the others have changed. Every program of a runtime or a consumer keeps the promise of
the node-first protocol all the same, because what it rests on is never lost: a runtime closes
`phase:nodes` only after its own `complete_producers`, a consumer closes `audit:endpoints` only
after it has seen or made the seal (`runtime_keeps`, `consumer_keeps`).

`node_first_protocol` puts this together over every interleaving, with any other calls on the
journal that neither enqueue into the run, nor close its barriers, nor purge it.
-/

namespace CortexHarness.Journal

open Table Clients

variable {cfg : Config} {op : Op} {s u v : SQLiteJournal} {runId : String}

/-! ## The contract of the clients -/

/-- The command keeps the promise in the state `s`, on the input `i`. -/
def Command.Promised (runId : String) (s : Shared) (i : Input) : Command → Prop
  | .journal call => Promise runId s.journal (call i)
  | _ => True

theorem perform_journal (cfg : Config) (s : Shared) (i : Input) (c : Command) :
    (perform cfg s i c).2.journal = s.journal ∨
      ∃ call, c = .journal call ∧ (perform cfg s i c).2.journal = step cfg s.journal (call i) := by
  cases c with
  | journal call => exact .inr ⟨call, rfl, rfl⟩
  | _ => exact .inl rfl

/-- The clients of a node-first run. -/
def nodeFirstContract (cfg : Config) (runId : String) : Contract (perform cfg) where
  inv s := Reachable cfg s.journal ∧ NodeFirst runId s.journal
  admits _ _ := True
  guar s i c := c.Promised runId s i
  keeps := by
    intro s i c hi _ hg
    rcases perform_journal cfg s i c with hj | ⟨call, rfl, hj⟩
    · rw [hj]
      exact hi
    · rw [hj]
      exact ⟨hi.1.step cfg (call i), step_nodeFirst hi.1.inv hg hi.2⟩

/-- The producers of the run are complete. -/
def Complete (runId : String) (s : Shared) : Prop := s.journal.productionComplete runId = true

/-- The audit of the run is sealed. -/
def Sealed (runId : String) (s : Shared) : Prop := ∃ a ∈ s.journal.endpointAudits, a.runId = runId

theorem complete_stable : (nodeFirstContract cfg runId).Stable (Complete runId) := by
  intro s i c hi _ hg hc
  rcases perform_journal cfg s i c with hj | ⟨call, rfl, hj⟩
  · rwa [Complete, hj]
  · rw [Complete, hj]
    exact step_complete hi.1.inv (Promise.not_delete hg) hc

theorem sealed_stable : (nodeFirstContract cfg runId).Stable (Sealed runId) := by
  intro s i c hi _ hg hc
  rcases perform_journal cfg s i c with hj | ⟨call, rfl, hj⟩
  · rwa [Sealed, hj]
  · rw [Sealed, hj]
    exact step_sealed hi.1.inv (Promise.not_delete hg) hc

theorem const_stable (P : Prop) : (nodeFirstContract cfg runId).Stable fun _ => P :=
  fun _ _ _ _ _ _ h => h

/-- A program of a client keeps the promise and ends in `Q`. -/
abbrev Keeps {α : Type} (cfg : Config) (runId : String) (F : Shared → Prop) (p : Client α)
    (Q : α → Shared → Prop) : Prop :=
  Triple (nodeFirstContract cfg runId) F p Q fun _ _ => True

/-- A command that keeps the promise in every state. -/
def Harmless (runId : String) (c : Command) : Prop := ∀ s i, c.Promised runId s i

theorem harmless_keeps {α : Type} {p : Client α} (h : p.Only (Harmless runId)) :
    Keeps cfg runId (fun _ => True) p fun _ _ => True :=
  Triple.of_only (K := nodeFirstContract cfg runId) (fun _ hc s i _ _ => hc s i) (const_stable True) h

/-- An exception is kept as a value. -/
theorem attempt_keeps {α : Type} {p : Client α} (h : p.Only (Harmless runId)) :
    Keeps cfg runId (fun _ => True) p.attempt fun _ _ => True :=
  .attempt (harmless_keeps h) (fun _ _ _ h => h) fun _ _ _ h => h

theorem call_keeps {op : Input → Op} {F : Shared → Prop} {Q : Reply → Shared → Prop}
    (hQ : ∀ r, (nodeFirstContract cfg runId).Stable (Q r))
    (hg : ∀ s i, Reachable cfg s.journal → F s → Promise runId s.journal (op i))
    (hr : ∀ (s : Shared) i reply, Reachable cfg s.journal → F s →
      (exec cfg s.journal (op i)).1 = .ok reply → Q reply (perform cfg s i (.journal op)).2) :
    Keeps cfg runId F (call op) Q := by
  refine .call (fun r s => ∀ reply, r = .ok reply → Q reply s) (fun s i hi _ hF => hg s i hi.1 hF)
    (fun r => ?_) (fun s i hi _ hF reply he => hr s i reply hi.1 hF he) fun r => ?_
  · intro s i c hi ha hgc h reply he
    exact hQ reply s i c hi ha hgc (h reply he)
  · cases r with
    | ok reply => exact fun s _ h => h reply rfl
    | error e => exact fun _ _ _ => trivial

/-! ## The consumer -/

namespace GraphWriteJournalConsumer

variable {py : Python} {compilers : Compilers} {consumer : GraphWriteJournalConsumer}

theorem harmless_settles : Settles (Harmless runId) where
  readFiles := fun _ _ => trivial
  readback := fun _ _ _ => trivial
  audit := fun _ _ _ => trivial
  block := fun _ _ _ _ _ _ => trivial
  backOff := fun _ _ _ _ _ => trivial
  ack := fun _ _ _ _ _ => trivial
  retry := fun _ _ _ _ _ _ => trivial
  mark := fun _ _ _ _ _ => trivial

theorem executeOne_harmless (batch : Batch) (token : String) :
    (consumer.executeOne py compilers batch token).Only (Harmless runId) := by
  refine .bind (.perform fun _ _ => trivial) fun files => ?_
  split
  · exact .bind (block_only harmless_settles.toWatches ..) fun _ => trivial
  · split
    · exact .bind (block_only harmless_settles.toWatches ..) fun _ => trivial
    · trivial
    · refine .handle ⟨fun _ _ => trivial, fun r => ?_⟩ fun e =>
        markAmbiguous_only harmless_settles _ _ e
      cases r with
      | error e => trivial
      | ok count => exact settle_only harmless_settles ..

theorem closeAudit_keeps :
    Keeps cfg runId (fun s => consumer.runId = runId → Sealed runId s)
      (call fun i => .closeBarrier consumer.runId endpointAuditBarrier i.now) fun _ _ => True :=
  call_keeps (fun _ => const_stable True)
    (fun s i _ hs hr => ⟨fun he => absurd he (by decide), fun _ => hs hr⟩)
    fun _ _ _ _ _ _ => trivial

theorem sealed_of_status {s : Shared} {status : String}
    (h : endpointAuditStatus cfg s.journal runId = .ok (some status)) : Sealed runId s := by
  unfold endpointAuditStatus at h
  split at h
  · cases h
  · rename_i a ha
    exact ⟨a, lookup_mem ha, lookup_key ha⟩

theorem seal_keeps (audited : Nat) :
    Keeps cfg runId (fun _ => True)
      (call fun i => .sealEndpointAudit consumer.runId none none (some (audited : Int)) i.now)
      fun _ s => consumer.runId = runId → Sealed runId s := by
  refine call_keeps (fun _ => .imp _ fun _ => sealed_stable) (fun _ _ _ _ => trivial)
    fun s i reply hr _ he hid => ?_
  subst hid
  simp only [exec] at he
  cases hs : sealEndpointAudit cfg s.journal consumer.runId none none (some (audited : Int))
      i.now with
  | error e =>
    rw [hs] at he
    cases he
  | ok p =>
    obtain ⟨-, -, -, -, a, ha, har, -⟩ := sealEndpointAudit_inv hr.ledgerInv hs
    refine ⟨a, ?_, har⟩
    simp only [perform, exec, hs, transaction]
    exact ha

theorem sealEndpointAuditIfReady_keeps :
    Keeps cfg runId (fun _ => True) (consumer.sealEndpointAuditIfReady py compilers)
      fun _ _ => True := by
  unfold sealEndpointAuditIfReady
  split
  · exact fun _ _ _ => trivial
  · refine .call (fun r s => r = .ok (some "sealed") → consumer.runId = runId → Sealed runId s)
      (fun _ _ _ _ _ => trivial) (fun r => .imp _ fun _ => .imp _ fun _ => sealed_stable)
      (fun s i hi _ _ he hid => sealed_of_status (hid ▸ he)) fun r => ?_
    cases r with
    | error e => exact fun _ _ _ => trivial
    | ok status =>
      simp only [Prog.bind]
      split
      · rename_i hst
        refine .bind (closeAudit_keeps.pre fun s _ h => h (by rw [hst])) fun _ => ?_
        exact fun _ _ _ => trivial
      · refine Triple.pre (F := fun _ => True) ?_ fun _ _ _ => trivial
        refine .bind (harmless_keeps (.perform fun _ _ => trivial)) fun r => ?_
        split
        · exact fun _ _ _ => trivial
        · split
          · exact fun _ _ _ => trivial
          · refine .bind (harmless_keeps (.perform fun _ _ => trivial)) fun batches => ?_
            refine .bind (harmless_keeps
              (auditBatches_only harmless_settles.toWatches ..)) fun audited => ?_
            refine .bind (seal_keeps audited) fun _ => ?_
            exact .bind closeAudit_keeps fun _ => fun _ _ _ => trivial

/-- A claim of the drain loop. -/
theorem claim_harmless {op : Input → Op} (h : ∀ i, (op i).claimToken.isSome = true) :
    (callBatch op).Only (Harmless runId) := by
  refine callBatch_only fun s i => ?_
  show Promise runId s.journal (op i)
  have := h i
  cases hop : op i <;> simp_all [Op.claimToken, Op.leaseToken, Op.readbackToken, Promise]

theorem drainLoop_keeps (drained fuel : Nat) :
    Keeps cfg runId (fun _ => True) (consumer.drainLoop py compilers drained fuel)
      fun _ _ => True := by
  induction fuel generalizing drained with
  | zero => exact fun _ _ _ => trivial
  | succ fuel ih =>
    simp only [drainLoop]
    refine .bind (harmless_keeps (claim_harmless fun _ => rfl)) fun r => ?_
    split
    · exact .bind (harmless_keeps (withToken_only (reconcileOne_only harmless_settles _))) fun _ => ih _
    · refine .bind (harmless_keeps (claim_harmless fun _ => rfl)) fun r => ?_
      split
      · exact .bind (harmless_keeps (withToken_only (executeOne_harmless _))) fun _ => ih _
      · refine .bind (sealEndpointAuditIfReady_keeps) fun _ => ?_
        refine .bind (harmless_keeps (claim_harmless fun _ => rfl)) fun r => ?_
        split
        · exact .bind (harmless_keeps (withToken_only (executeOne_harmless _))) fun _ => ih _
        · exact fun _ _ _ => trivial

end GraphWriteJournalConsumer

/-- **A consumer keeps the promise**, whatever happens between its commands. -/
theorem consumer_keeps {py : Python} {compilers : Compilers} (config : JournalConfig) (fuel : Nat) :
    Keeps cfg runId (fun _ => True)
      (GraphWriteJournalConsumer.process py compilers config fuel) fun _ _ => True := by
  have hinit : (GraphWriteJournalConsumer.init py config).Only (Harmless runId) := by
    unfold GraphWriteJournalConsumer.init
    split
    · trivial
    · refine .bind (.perform fun _ _ => trivial) fun r => ?_
      split
      · trivial
      · exact .bind (call_only fun _ _ => trivial) fun _ => trivial
  refine .bind (harmless_keeps hinit) fun consumer => ?_
  refine .bind (.bind consumer.sealEndpointAuditIfReady_keeps fun _ =>
    consumer.drainLoop_keeps 0 fuel) fun _ => ?_
  exact fun _ _ _ => trivial

/-! ## The runtime -/

namespace GraphWriteJournalRuntime

variable {py : Python} {rt : GraphWriteJournalRuntime}

theorem barrierContract_runtime (py : Python) (rt : GraphWriteJournalRuntime)
    (operation : GraphWriteOperation) (rows : List Json)
    (sequence : Nat) (sha256 : String) :
    (rt.barrierContract py operation rows sequence sha256).2.2.config = rt.config ∧
      (rt.barrierContract py operation rows sequence sha256).2.2.run = rt.run := by
  unfold barrierContract
  cases nodeShape operation with
  | none =>
    simp only
    split
    · split <;> exact ⟨rfl, rfl⟩
    · exact ⟨rfl, rfl⟩
  | some shape =>
    simp only
    split
    · split <;> exact ⟨rfl, rfl⟩
    · exact ⟨rfl, rfl⟩

/-- **The barrier contract is node-first**: nodes produce `phase:nodes`, everything else requires
both barriers. -/
theorem barrierContract_nodeFirst (py : Python) (hn : rt.config.nodeFirst = true)
    (operation : GraphWriteOperation) (rows : List Json) (sequence : Nat) (sha256 : String) :
    NodeFirstBarriers operation.phase (rt.barrierContract py operation rows sequence sha256).1
      (rt.barrierContract py operation rows sequence sha256).2.1 := by
  unfold barrierContract
  simp only [hn, if_true]
  by_cases hp : operation.phase = .nodes
  · simp only [hp, if_true]
    exact ⟨fun _ => mem_sortedSet.mpr List.mem_cons_self, fun h => absurd rfl h⟩
  · simp only [if_neg hp]
    exact ⟨fun h => absurd h hp, fun _ => ⟨mem_sortedSet.mpr (by simp), mem_sortedSet.mpr (by simp)⟩⟩

/-- The barriers a batch produces are `phase:nodes` and a node barrier of its own. -/
theorem barrierContract_produced {operation : GraphWriteOperation} {rows : List Json}
    {sequence : Nat} {sha256 name : String}
    (h : name ∈ (rt.barrierContract py operation rows sequence sha256).2.1) :
    name = nodePhaseBarrier ∨ ∃ label, name = nodeBarrier label sequence sha256 := by
  unfold barrierContract at h
  cases hs : nodeShape operation with
  | none =>
    simp only [hs] at h
    split at h
    · split at h
      · exact .inl (by simpa using mem_sortedSet.mp h)
      · cases h
    · cases h
  | some shape =>
    simp only [hs] at h
    split at h
    · split at h
      · rcases List.mem_cons.mp (mem_sortedSet.mp h) with h | h
        · exact .inl h
        · exact .inr ⟨_, List.mem_singleton.mp h⟩
      · exact .inr ⟨_, List.mem_singleton.mp h⟩
    · exact .inr ⟨_, List.mem_singleton.mp h⟩

theorem nodeBarrier_ne (label : String) (sequence : Nat) (sha256 : String) :
    nodeBarrier label sequence sha256 ≠ endpointAuditBarrier := by
  intro h
  have hl := congrArg String.toList h
  simp [nodeBarrier, endpointAuditBarrier] at hl

theorem closeBarriers_harmless {names : List String} (h : endpointAuditBarrier ∉ names) :
    (closeBarriers rt.run.runId names).Only (Harmless runId) := by
  induction names with
  | nil => trivial
  | cons name names ih =>
    have hrest := ih fun hm => h (List.mem_cons_of_mem _ hm)
    simp only [closeBarriers]
    split
    · rename_i hne
      refine .bind (call_only fun s i _ => ⟨fun he => absurd he hne, fun he => ?_⟩)
        fun _ => hrest
      exact absurd (he ▸ List.mem_cons_self) h
    · exact hrest

theorem ticket_harmless (a : PrepareCall) (operation : GraphWriteOperation) (batch : Batch) :
    (rt.ticket a operation batch).Only (Harmless runId) := by
  have hclaim : ∀ op : Input → Op, (∀ i, (op i).claimToken.isSome = true) →
      (claimBatchRecord op).Only (Harmless runId) :=
    fun op h => .bind (GraphWriteJournalConsumer.claim_harmless h) fun _ => trivial
  simp only [ticket]
  split
  · trivial
  · split
    · trivial
    · split
      · refine .bind (hclaim _ fun _ => rfl) fun r => ?_
        split <;> trivial
      · refine .bind (hclaim _ fun _ => rfl) fun r => ?_
        split
        · trivial
        · refine .bind (.perform fun _ _ => trivial) fun r => ?_
          split
          · split <;> trivial
          · trivial

theorem BatchSpec.make_barriers {phase : OperationPhase} {operationKey : String} {sequence : Nat}
    {artifact : ArtifactRef} {expectedCount maxAttempts : Nat} {required produced : List String}
    {operation : List (String × Json)} {spec : BatchSpec}
    (h : BatchSpec.make py phase operationKey sequence artifact expectedCount required produced
      maxAttempts operation = .ok spec) :
    spec.phase = phase ∧ spec.requiredBarriers = sortedSet required ∧
      spec.producedBarriers = sortedSet produced := by
  unfold BatchSpec.make at h
  simp only at h
  split at h
  · split at h
    · split at h
      · split at h
        · cases h
          exact ⟨rfl, rfl, rfl⟩
        · cases h
      · cases h
    · cases h
  · cases h

theorem enqueue_harmless {a : PrepareCall} {operation : GraphWriteOperation} {artifact : ArtifactRef}
    {required produced : List String}
    (hb : rt.run.runId = runId → NodeFirstBarriers operation.phase required produced)
    (ha : endpointAuditBarrier ∉ produced) :
    (rt.enqueue py a operation artifact required produced).Only (Harmless runId) := by
  unfold enqueue
  cases hspec : BatchSpec.make py operation.phase operation.operationKey a.sequence artifact
      a.rows.length (sortedSet (required ++ a.additionalRequiredBarriers)) produced
      rt.config.maxAttempts operation.toDict with
  | error e => trivial
  | ok spec =>
    obtain ⟨hph, hreq, hpro⟩ := BatchSpec.make_barriers hspec
    have hpromise : rt.run.runId = runId →
        NodeFirstBarriers spec.phase spec.requiredBarriers spec.producedBarriers := by
      intro hid
      have hb := hb hid
      rw [hph, hreq, hpro]
      have hmem : ∀ n ∈ required,
          n ∈ sortedSet (sortedSet (required ++ a.additionalRequiredBarriers)) := fun n hn =>
        mem_sortedSet.mpr (mem_sortedSet.mpr (List.mem_append_left _ hn))
      exact ⟨fun h => mem_sortedSet.mpr (hb.nodes h),
        fun h => ⟨hmem _ (hb.others h).1, hmem _ (hb.others h).2⟩⟩
    have hcall : (callBatch fun i => .enqueueBatch rt.run.runId spec i.files i.free i.now).Only
        (Harmless runId) := callBatch_only fun _ _ => hpromise
    simp only [Except.mapError, Prog.ofExcept, Prog.bind_def, Prog.bind]
    refine .bind hcall fun r => ?_
    split
    · exact .bind (closeBarriers_harmless ha) fun _ => ticket_harmless ..
    · trivial

/-- `prepare` keeps the promise and leaves a runtime of the same run. -/
theorem prepare_keeps (hn : rt.run.runId = runId → rt.config.nodeFirst = true) (a : PrepareCall) :
    Keeps cfg runId (fun _ => True) (rt.prepare py a)
      fun p _ => p.2.config = rt.config ∧ p.2.run = rt.run := by
  unfold prepare
  split
  · exact fun _ _ _ => ⟨rfl, rfl⟩
  · rename_i operation _
    refine .bind (harmless_keeps (.perform fun _ _ => trivial)) fun r => ?_
    split
    · exact fun _ _ _ => ⟨rfl, rfl⟩
    · rename_i artifact
      have hb := fun hid =>
        barrierContract_nodeFirst py (hn hid) operation a.rows a.sequence artifact.sha256
      have hrt := barrierContract_runtime py rt operation a.rows a.sequence artifact.sha256
      have haudit : endpointAuditBarrier ∉
          (rt.barrierContract py operation a.rows a.sequence artifact.sha256).2.1 := by
        intro hm
        rcases barrierContract_produced hm with he | ⟨label, he⟩
        · exact absurd he (by decide)
        · exact nodeBarrier_ne _ _ _ he.symm
      generalize rt.barrierContract py operation a.rows a.sequence artifact.sha256 = contract
        at hb hrt haudit ⊢
      obtain ⟨required, produced, rt'⟩ := contract
      have henqueue : (rt'.enqueue py a operation artifact required produced).Only
          (Harmless runId) := enqueue_harmless (fun hid => hb (hrt.2 ▸ hid)) haudit
      simp only [Prog.bind_def, Prog.pure_def]
      generalize rt'.enqueue py a operation artifact required produced = p at henqueue ⊢
      exact .bind (attempt_keeps henqueue) fun _ => fun _ _ _ => hrt

/-- A successful `complete_producers` leaves the completion marker. -/
theorem complete_of_ok {now : Time} {n : Nat} {t : SQLiteJournal}
    (h : completeProducers s runId now = .ok (n, t)) : t.productionComplete runId = true := by
  unfold completeProducers at h
  simp only at h
  split at h
  · cases h
  · split at h
    · cases h
    · split at h
      · rename_i hc
        cases h
        exact hc
      · split at h
        · cases h
        · cases h
          exact productionComplete_iff.mpr ⟨_, List.mem_append_right _ List.mem_cons_self, rfl, rfl,
            rfl⟩

/-- `close_node_production` closes the barrier of a completed production. -/
theorem closeNodeProduction_keeps :
    Keeps cfg runId (fun _ => True) rt.closeNodeProduction fun _ _ => True := by
  unfold closeNodeProduction
  split
  · have hcomplete : Keeps cfg runId (fun _ => True)
        (call fun i => .completeProducers rt.run.runId i.now)
        fun _ s => rt.run.runId = runId → Complete runId s := by
      refine call_keeps (fun _ => .imp _ fun _ => complete_stable) (fun _ _ _ _ => trivial)
        fun s i reply hr _ he hid => ?_
      simp only [exec] at he
      cases hs : completeProducers s.journal rt.run.runId i.now with
      | error e =>
        rw [hs] at he
        cases he
      | ok p =>
        simp only [Complete, perform, exec, hs, transaction]
        exact complete_of_ok (hid ▸ hs)
    refine .bind hcomplete fun _ => ?_
    refine .bind (Q := fun _ _ => True) (call_keeps (fun _ => const_stable True)
      (fun s i _ hc hr => ⟨fun _ => hc hr, fun he => absurd he (by decide)⟩)
      fun _ _ _ _ _ _ => trivial) fun _ => ?_
    exact fun _ _ _ => trivial
  · exact fun _ _ _ => trivial

theorem produce_keeps (hn : rt.run.runId = runId → rt.config.nodeFirst = true)
    (calls : List RuntimeCall) :
    Keeps cfg runId (fun _ => True) (rt.produce py calls) fun _ _ => True := by
  induction calls generalizing rt with
  | nil => exact fun _ _ _ => trivial
  | cons c calls ih =>
    cases c with
    | prepare a =>
      refine .bind (prepare_keeps hn a) fun p => .assume fun hp => ?_
      exact ih (by rw [hp.1, hp.2]; exact hn)
    | closeNodeProduction =>
      refine .bind (Q := fun _ _ => True) (.attempt closeNodeProduction_keeps
        (fun _ _ _ h => h) fun _ _ _ h => h) fun _ => ?_
      exact ih hn

/-- `open_run` returns the run of its metadata. -/
theorem openRun_runId {metadata : RunMetadata} {items bytes free : Int} {now : Time} {run : Run}
    {t : SQLiteJournal} (h : openRun cfg s metadata items bytes free now = .ok (run, t)) :
    run.runId = runIdOf cfg.python metadata := by
  unfold openRun at h
  split at h
  · cases h
  · simp only at h
    split at h
    · rename_i existing hget
      split at h
      · cases h
      · split at h
        · cases h
        · cases h
          exact lookup_key hget
    · cases h
      rfl

theorem init_keeps (config : JournalConfig) :
    Keeps cfg runId (fun _ => True) (init config)
      fun rt _ => rt.config = config ∧ rt.run.runId = runIdOf cfg.python config.metadata := by
  have hopen : Keeps cfg runId (fun _ => True)
      (call fun i => .openRun config.metadata 0 0 i.free i.now)
      fun reply _ => ∀ run, reply = .run (some run) →
        run.runId = runIdOf cfg.python config.metadata := by
    refine call_keeps (fun _ => const_stable _) (fun _ _ _ _ => trivial)
      fun s i reply _ _ he run hrun => ?_
    simp only [exec] at he
    cases ho : openRun cfg s.journal config.metadata 0 0 i.free i.now with
    | error e =>
      rw [ho] at he
      cases he
    | ok p =>
      rw [ho] at he
      simp only [transaction, Function.comp, Except.ok.injEq] at he
      rw [hrun] at he
      cases he
      exact openRun_runId ho
  unfold init
  refine .bind hopen fun reply => .assume fun hrun => ?_
  split
  · rename_i run
    have hid := hrun run rfl
    refine .bind (harmless_keeps (call_only fun _ _ => trivial)) fun _ => ?_
    split
    · refine .bind (harmless_keeps (call_only fun _ _ => trivial)) fun _ => ?_
      refine .bind (harmless_keeps (call_only fun _ _ => trivial)) fun _ => ?_
      exact fun _ _ _ => ⟨rfl, hid⟩
    · exact fun _ _ _ => ⟨rfl, hid⟩
  · exact fun _ _ _ => trivial

end GraphWriteJournalRuntime

/-- **A runtime keeps the promise** of every run whose query shape it knows. -/
theorem runtime_keeps {py : Python} {config : JournalConfig}
    (hn : runIdOf cfg.python config.metadata = runId → config.nodeFirst = true)
    (calls : List GraphWriteJournalRuntime.RuntimeCall) :
    Keeps cfg runId (fun _ => True) (GraphWriteJournalRuntime.process py config calls)
      fun _ _ => True := by
  refine .bind (GraphWriteJournalRuntime.init_keeps config) fun rt => .assume fun hrt => ?_
  exact rt.produce_keeps (by rw [hrt.1, hrt.2]; exact hn) calls

/-! ## The protocol -/

/-- A call that neither enqueues into the run, nor closes one of its two barriers, nor purges it. -/
def Op.Outside (runId : String) : Op → Prop
  | .enqueueBatch r _ _ _ _ => r ≠ runId
  | .closeBarrier r name _ => r = runId → name ≠ nodePhaseBarrier ∧ name ≠ endpointAuditBarrier
  | .deleteRun r => r ≠ runId
  | _ => True

theorem Op.Outside.promise (h : op.Outside runId) (s : SQLiteJournal) : Promise runId s op := by
  cases op with
  | enqueueBatch r spec files free now => exact fun hr => absurd hr h
  | closeBarrier r name now =>
    exact fun hr => ⟨fun hn => absurd hn (h hr).1, fun hn => absurd hn (h hr).2⟩
  | deleteRun r => exact h
  | _ => trivial

/-- A process at the journal of a node-first run: a runtime (of this run or another), a consumer, or
one call from elsewhere. -/
inductive Process (cfg : Config) (runId : String) where
  | runtime (config : JournalConfig) (calls : List GraphWriteJournalRuntime.RuntimeCall)
      (h : runIdOf cfg.python config.metadata = runId →
        config.metadata.queryShapeVersion = nodeFirstQueryShape)
  | consumer (compilers : Compilers) (config : JournalConfig) (fuel : Nat)
  | caller (op : Op) (h : op.Outside runId)

def Process.program (cfg : Config) (runId : String) : Process cfg runId → Client Unit
  | .runtime config calls _ => GraphWriteJournalRuntime.process cfg.python config calls
  | .consumer compilers config fuel =>
    GraphWriteJournalConsumer.process cfg.python compilers config fuel
  | .caller op _ => do
    let _ ← call fun _ => op
    return ()

theorem Process.keeps (d : Process cfg runId) :
    Keeps cfg runId (fun _ => True) (d.program cfg runId) fun _ _ => True := by
  cases d with
  | runtime config calls h => exact runtime_keeps (fun hid => beq_iff_eq.mpr (h hid)) calls
  | consumer compilers config fuel => exact consumer_keeps config fuel
  | caller op h =>
    exact .bind (harmless_keeps (call_only fun s _ => h.promise s.journal)) fun _ => fun _ _ _ => trivial

/-- The worlds of a node-first run: any interleaving of its processes, each of which can stop at any
point. -/
abbrev NodeFirstReaches (cfg : Config) (runId : String) :=
  Reaches (perform cfg) (Process.program cfg runId) fun _ _ => True

theorem added_stable (batches : List Batch) :
    (nodeFirstContract cfg runId).Stable fun s => Complete runId s ∧
      ∀ b' ∈ s.journal.batches, b'.runId = runId →
        ∃ b ∈ batches, b.toBatchCore = b'.toBatchCore := by
  intro s i c hi ha hg ⟨hc, hb⟩
  refine ⟨complete_stable s i c hi ha hg hc, ?_⟩
  rcases perform_journal cfg s i c with hj | ⟨call, rfl, hj⟩
  · rwa [hj]
  · intro b' hb' hr
    rw [hj] at hb'
    have hdel := Promise.not_delete hg
    obtain ⟨b₁, hb₁, he₁⟩ := completed_adds_none hi.1.inv hc [call i] (by simpa using hdel.symm)
      b' hb' hr
    obtain ⟨b, hm, he⟩ := hb b₁ hb₁ (by rw [he₁]; exact hr)
    exact ⟨b, hm, he.trans he₁⟩

/-- **The node-first protocol.** In every world of the run, whatever call leases a batch that is not
one of nodes finds every node batch done, the producers complete and the audit of all edge rows
sealed; and once the producers are complete no batch is added in any later world. -/
theorem node_first_protocol {w : Clients.World Shared Command Command.Result Raised}
    (h : NodeFirstReaches cfg runId ⟨{}, []⟩ w) :
    (∀ op jobId, leasedJob cfg w.state.journal op = some jobId →
      ∀ b ∈ w.state.journal.batches, b.jobId = jobId → b.runId = runId → b.phase ≠ .nodes →
        Released runId w.state.journal) ∧
    (w.state.journal.productionComplete runId = true → ∀ w', NodeFirstReaches cfg runId w w' →
      ∀ b' ∈ w'.state.journal.batches, b'.runId = runId →
        ∃ b ∈ w.state.journal.batches, b.toBatchCore = b'.toBatchCore) := by
  have h0 : Clients.World.Sound (nodeFirstContract cfg runId)
      (⟨{}, []⟩ : Clients.World Shared Command Command.Result Raised) :=
    ⟨⟨Reachable.empty cfg, NodeFirst.empty⟩, fun p hp => absurd hp List.not_mem_nil⟩
  have hsound := (nodeFirstContract cfg runId).sound Process.keeps h0 h
  refine ⟨fun op jobId hl b hb hj hr hp => released hsound.1.1 hsound.1.2 hl hb hj hr hp,
    fun hc w' h' => ?_⟩
  exact ((added_stable w.state.journal.batches).reaches Process.keeps hsound
    ⟨hc, fun b hb _ => ⟨b, hb, rfl⟩⟩ h').2

/-! ## A lease of calls -/

/-- The metadata of a node-first run. -/
def sampleNodeFirst : RunMetadata :=
  { sampleMetadata "g1" with queryShapeVersion := nodeFirstQueryShape }

/-- SHA-256 on the texts the sample hashes. -/
def sampleNodeFirstSha256 (text : String) : String :=
  if text = sampleNodeFirst.toDict.dumps then
    "64ea90907b644c5458ccfb3a68a4d75c78c894d02b39f9b8e4e0ff2ffdd6fba4"
  else if text = "[]" then "4f53cda18c2baa0c0354bb5f9a3ecbe5ed12ab4d8e11ba873c2f11161202b945"
  else if text = Json.dumps (.obj [("run_fingerprint",
        .str "64ea90907b644c5458ccfb3a68a4d75c78c894d02b39f9b8e4e0ff2ffdd6fba4"),
      ("phase", .str "calls"), ("operation_key", .str "graph-write/v1/calls/calls"),
      ("sequence", .int 0), ("payload_sha256", .str emptySha256)]) then
    "554f02bfd3251cd83769ff1528f13a666386eb6b6c804a2f2581265d645894bf"
  else ""

def sampleNodeFirstConfig : Config :=
  { python := ⟨sampleNodeFirstSha256, fun _ => "", id, fun _ => .error ""⟩ }

def sampleNodeFirstId : String :=
  "run_64ea90907b644c5458ccfb3a68a4d75c78c894d02b39f9b8e4e0ff2ffdd6fba4"

/-- A runtime that prepares a batch of calls and completes. -/
def sampleRuntime : Process sampleNodeFirstConfig sampleNodeFirstId :=
  .runtime { metadata := sampleNodeFirst }
    [.prepare { label := "calls", rows := [], sequence := 0 }, .closeNodeProduction] fun _ => rfl

/-- A consumer whose audit finds nothing to check. -/
def sampleConsumer : Process sampleNodeFirstConfig sampleNodeFirstId :=
  .consumer ⟨fun _ _ => .ok ⟨"", []⟩, fun _ _ => .ok none⟩ { metadata := sampleNodeFirst } 2

def sampleInput : Input :=
  { now := 0, token := "a1", retryAt := 0, free := 1000000000,
    files := [⟨[sampleNodeFirstId, emptySha256 ++ ".jsonl"], 0, emptySha256, some []⟩],
    artifact := .ok ⟨emptySha256, sampleNodeFirstId ++ "/" ++ emptySha256 ++ ".jsonl", 0, 0⟩,
    submission := .commits 0, outage := none, auditRows := [], elapsedMs := 0 }

/-- The runtime to its end, then the consumer to its second claim. -/
def sampleEvents : List (Clients.Event (Process sampleNodeFirstConfig sampleNodeFirstId) Input) :=
  .start sampleRuntime :: List.replicate 8 (.perform 0 sampleInput) ++
    .start sampleConsumer :: List.replicate 9 (.perform 1 sampleInput)

def sampleWorld : Clients.World Shared Command Command.Result Raised :=
  Run.run (Clients.World.step (perform sampleNodeFirstConfig)
    (Process.program sampleNodeFirstConfig sampleNodeFirstId)) ⟨{}, []⟩ sampleEvents

def sampleClaim : Op := .claimBatch (some sampleNodeFirstId) 300 "b2" 0

/-- The claim leases a batch of the run that is not one of nodes. -/
def leasesOther (s : SQLiteJournal) (op : Op) : Bool :=
  (leasedJob sampleNodeFirstConfig s op).any fun jobId => s.batches.any fun b =>
    b.jobId == jobId && b.runId == sampleNodeFirstId && b.phase != .nodes

theorem node_first_protocol_sample :
    NodeFirstReaches sampleNodeFirstConfig sampleNodeFirstId ⟨{}, []⟩ sampleWorld ∧
    leasesOther sampleWorld.state.journal sampleClaim = true ∧
    Released sampleNodeFirstId sampleWorld.state.journal := by
  have h : NodeFirstReaches sampleNodeFirstConfig sampleNodeFirstId ⟨{}, []⟩ sampleWorld :=
    Reaches.run _ _ _ _ (.of_forall _ _ (fun _ _ => trivial) _ _)
  have hl : leasesOther sampleWorld.state.journal sampleClaim = true := by decide +kernel
  refine ⟨h, hl, ?_⟩
  unfold leasesOther at hl
  obtain ⟨jobId, hj, hl⟩ := Option.any_eq_true _ _ |>.mp hl
  simp only [List.any_eq_true, Bool.and_eq_true, beq_iff_eq, bne_iff_ne] at hl
  obtain ⟨b, hb, ⟨hbj, hbr⟩, hbp⟩ := hl
  exact (node_first_protocol h).1 sampleClaim jobId hj b hb hbj hbr hbp

end CortexHarness.Journal
