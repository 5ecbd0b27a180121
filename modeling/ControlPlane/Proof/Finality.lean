import ControlPlane.Proof.Jobs

/-!
# Terminal results are final

No write starts from a terminal job. A completion or failure that gets to one reads the stored row:
it repeats the outcome or is refused, and writes nothing.
-/

namespace ControlPlane

open ReadCommitted ReadCommitted.Handler Store Option

variable {cfg : Config} {s t u : State} {a : Action Key Call}

variable {readings : List Instant} {id : Uuid} {row : ProvisioningJobRow} {call : Call}
  {new : ProvisioningJobRow}

theorem active_of_write {access : Access}
    (hwrite : JobWrite cfg call readings id access (some row) new) :
    row.status.isActive = true := by
  cases hwrite with
  | approved _ _ _ _ _ _ _ hstatus => simp [hstatus, JobStatus.isActive]
  | cancelled _ _ _ _ hstatus => obtain h | h := hstatus <;> simp [h, JobStatus.isActive]
  | exhausted _ _ _ _ _ hlapsed | reapproved _ _ _ _ _ hlapsed =>
    simp only [isExhausted, isReclaimable, leaseLapsed, Bool.and_eq_true, decide_eq_true_eq]
      at hlapsed
    simp [hlapsed.1.1, JobStatus.isActive]
  | claimed _ _ _ _ _ _ _ _ _ _ _ hclaimable =>
    simp only [isClaimable, Bool.and_eq_true, decide_eq_true_eq] at hclaimable
    simp [hclaimable.1, JobStatus.isActive]
  | renewed _ _ _ _ _ _ _ _ _ _ hclaim | succeeded _ _ _ _ _ _ _ _ _ _ _ _ hclaim
  | failed _ _ _ _ _ _ _ _ _ _ _ _ _ _ hclaim => simp [hclaim.running, JobStatus.isActive]

def Terminal (t : State) (id : Uuid) (row : ProvisioningJobRow) : Prop :=
  t.committed.lookup (.job id) = some row ∧ row.status.isActive = false

theorem terminal_step (hholds : (protocol cfg).Holds t) (hterminal : Terminal t id row)
    (hstep : step (server cfg) t a = some u) : Terminal u id row := by
  refine ⟨?_, hterminal.2⟩
  by_contra hchange
  rw [← hterminal.1] at hchange
  obtain ⟨sid, choice, call, next, tx, new, -, -, -, -, -, hchain⟩ :=
    Protocol.changed hstep hholds hchange
  obtain ⟨rs, access, mid, -, hwrite⟩ := hchain.first
  rw [hterminal.1] at hwrite
  have hactive := active_of_write hwrite
  simp [hterminal.2] at hactive

/-- The call repeats exactly the stored outcome, from the worker that reported it. -/
def Call.repeats (row : ProvisioningJobRow) : Call → Prop
  | .complete _ rawWorker rawToken completion =>
    ∃ worker token, Validation.workerId rawWorker = .ok worker ∧
      Validation.claimToken rawToken = .ok token ∧
      Validation.provisionSuccess completion = .ok () ∧ row.status = .succeeded ∧
      ∃ result, row.result = some result ∧ result.apiPort = some completion.apiPort ∧
        result.workspaceId = some completion.workspaceId ∧
        result.schemaVersion = some completion.schemaVersion ∧
        result.deployedSha = some completion.deployedSha ∧
        result.provisionerWorkerId = some worker
  | .fail _ rawWorker rawToken rawCode rawDetail =>
    ∃ worker token code detail, Validation.workerId rawWorker = .ok worker ∧
      Validation.claimToken rawToken = .ok token ∧
      Validation.provisionFailure rawCode rawDetail = .ok (code, detail) ∧
      row.status = .failed ∧ row.claimedBy = some worker ∧ row.errorCode = some code ∧
      row.errorDetail = detail
  | _ => False

def Call.settles : Call → Option Uuid
  | .complete id _ _ _ | .fail id _ _ _ _ => some id
  | _ => none

/-- What the caller of a replay is told: the stored row if it repeats the outcome, else an error. -/
def Replayed (row : ProvisioningJobRow) (call : Call) (answer : Except ApiError Reply) : Prop :=
  (call.repeats row → answer = .ok (.job row false)) ∧
    (¬ call.repeats row → ∃ e, answer = .error e)

def replay (id : Uuid) (row : ProvisioningJobRow) : Contract Row where
  rely
    | .job other, found => other = id → found = row
    | _, _ => True
  write _ _ _ _ _ := False
  commit _ := True
  resume _ := True

variable {completion : ProvisioningCompletion} {sid : Nat}
  {σ : Session Row ManagementRequest (Except ApiError Json) Call (Except ApiError Reply)}

theorem provisioningSuccessMatches_iff {worker : String} :
    provisioningSuccessMatches row worker completion = true ↔
      ∃ result, row.result = some result ∧ result.apiPort = some completion.apiPort ∧
        result.workspaceId = some completion.workspaceId ∧
        result.schemaVersion = some completion.schemaVersion ∧
        result.deployedSha = some completion.deployedSha ∧
        result.provisionerWorkerId = some worker := by
  unfold provisioningSuccessMatches
  cases row.result <;> simp [and_assoc]

/-- Both ways to settle a job begin so: a terminal one is only compared. -/
theorem wp_settle_replay {status : JobStatus} {same : ProvisioningJobRow → Bool} {conflict : ApiError}
    {notRunning : ProvisioningJobRow → ApiError} {repeats : Prop}
    {rest : Instant → ProvisioningJobRow → Handler ProvisioningJobRow}
    (hterminal : row.status.isActive = false)
    (hrepeats : repeats ↔ row.status = status ∧ same row = true) :
    wp (replay id row) (inTransaction do
      let now ← sqlNow
      let found ← lock (Key.job id)
      let existing : ProvisioningJobRow ← okOr found .notFound
      if existing.status = status then do
        ensure (same existing = true) conflict
        pure existing
      else do
        ensure (existing.status = .running) (notRunning existing)
        rest now existing) (.aware (· = .job id)) (fun found _ => found = row ∧ repeats)
      fun _ _ => ¬ repeats := by
  simp only [wp_bind, wp_inTransaction, wp_sqlNow, wp_lock, wp_okOr]
  refine ⟨trivial, trivial, fun now => ⟨trivial, fun _ habsent => absurd rfl habsent,
    fun found hfind => ⟨fun existing hexisting => ?_, fun h => by simp at h⟩⟩⟩
  obtain rfl := some.inj hexisting
  obtain rfl := hfind.2 rfl rfl
  split_ifs with hstatus
  · simp only [wp_bind, wp_ensure, wp_pure]
    exact ⟨fun hsame => ⟨trivial, trivial, trivial, hrepeats.mpr ⟨hstatus, hsame⟩⟩,
      fun hsame => ⟨trivial, fun h => hsame (hrepeats.mp h).2⟩⟩
  · simp only [wp_bind, wp_ensure]
    refine ⟨fun hrunning => ?_, fun _ => ⟨trivial, fun h => hstatus (hrepeats.mp h).1⟩⟩
    simp [hrunning, JobStatus.isActive] at hterminal

theorem wp_complete_replay (rawWorker rawToken : String) (completion : ProvisioningCompletion)
    (hterminal : row.status.isActive = false) :
    wp (replay id row) (Routes.completeProvisioning cfg id rawWorker rawToken completion)
      (.aware (· = .job id))
      (fun found _ => found = row ∧ (Call.complete id rawWorker rawToken completion).repeats row)
      fun _ _ => ¬ (Call.complete id rawWorker rawToken completion).repeats row := by
  simp only [Routes.completeProvisioning, wp_bind, wp_require]
  refine ⟨fun worker hworker => ⟨fun token htoken => ⟨fun _ hcompletion => ?_, ?_⟩, ?_⟩, ?_⟩
  · refine wp_settle_replay hterminal ?_
    simp [Call.repeats, hworker, htoken, hcompletion, provisioningSuccessMatches_iff]
  all_goals
    intro e he
    simp [Call.repeats, he]

theorem wp_fail_replay (rawWorker rawToken rawCode : String) (rawDetail : Option String)
    (hterminal : row.status.isActive = false) :
    wp (replay id row) (Routes.failProvisioning cfg id rawWorker rawToken rawCode rawDetail)
      (.aware (· = .job id))
      (fun found _ => found = row ∧ (Call.fail id rawWorker rawToken rawCode rawDetail).repeats row)
      fun _ _ => ¬ (Call.fail id rawWorker rawToken rawCode rawDetail).repeats row := by
  simp only [Routes.failProvisioning, wp_bind, wp_require]
  refine ⟨fun worker hworker => ⟨fun token htoken => ⟨fun ⟨code, detail⟩ hfailure => ?_, ?_⟩, ?_⟩, ?_⟩
  · refine wp_settle_replay hterminal ?_
    grind [Call.repeats, failureMatches]
  all_goals
    intro e he
    simp [Call.repeats, he]

theorem handle_replay (hcall : call.settles = some id) (hterminal : row.status.isActive = false) :
    (handle cfg call).run.wp (replay id row) (.aware (· = .job id))
      fun answer _ => Replayed row call answer := by
  have hanswer {body : Handler ProvisioningJobRow} (hbody : wp (replay id row) body
      (.aware (· = .job id)) (fun found _ => found = row ∧ call.repeats row)
      fun _ _ => ¬ call.repeats row) : wp (replay id row) ((Reply.job · false) <$> body)
      (.aware (· = .job id)) (fun reply _ => Replayed row call (.ok reply))
      fun e _ => Replayed row call (.error e) := by
    rw [wp_map]
    refine wp_mono ?_ ?_ hbody
    · rintro _ _ ⟨rfl, hrepeats⟩
      exact ⟨fun _ => rfl, fun hnot => absurd hrepeats hnot⟩
    · exact fun e _ hnot => ⟨fun hrepeats => absurd hrepeats hnot, fun _ => ⟨e, rfl⟩⟩
  rw [wp_run]
  cases call with
  | complete id' rawWorker rawToken completion =>
    obtain rfl : id' = id := by simpa [Call.settles] using hcall
    exact hanswer (wp_complete_replay rawWorker rawToken completion hterminal)
  | fail id' rawWorker rawToken rawCode rawDetail =>
    obtain rfl : id' = id := by simpa [Call.settles] using hcall
    exact hanswer (wp_fail_replay rawWorker rawToken rawCode rawDetail hterminal)
  | _ => simp [Call.settles] at hcall

structure Replaying (cfg : Config) (id : Uuid) (row : ProvisioningJobRow) (call : Call) (sid : Nat)
    (t : State) : Prop where
  holds : (protocol cfg).Holds t
  terminal : Terminal t id row
  serves : ∃ σ, t.sessions sid = some σ ∧ σ.call = call
  conforms : ∀ σ, t.sessions sid = some σ →
    Conforms (replay id row) (fun answer _ => Replayed row call answer) t.toShared sid σ
  silent : ∀ σ, t.sessions sid = some σ → σ.txn.writes = ∅ ∧ σ.txn.saved = ∅

theorem rely_of_terminal (hterminal : Terminal t id row) :
    ∀ key found, t.committed.lookup key = some found → (replay id row).rely key found := by
  intro key found hfound
  cases key with
  | job other =>
    rintro rfl
    rw [hterminal.1, some.injEq] at hfound
    exact hfound.symm
  | _ => trivial

theorem replaying_step (h : Replaying cfg id row call sid t)
    (hstep : step (server cfg) t a = some u) : Replaying cfg id row call sid u := by
  have hrely := rely_of_terminal h.terminal
  have hunstarted : ∀ call', a = .start sid call' → False := by
    rintro call' rfl
    obtain ⟨_, _, hnew, -⟩ := step_cases hstep
    obtain ⟨σ, hσ, -⟩ := h.serves
    simp [hnew] at hσ
  refine ⟨h.holds.step protocol_metBy hstep, terminal_step h.holds h.terminal hstep, ?_,
    fun σ hσ => ?_, fun σ hσ => ?_⟩
  · obtain ⟨σ, hσ, hcall⟩ := h.serves
    obtain ⟨σ', hσ', hcall'⟩ := call_step hstep hσ
    exact ⟨σ', hσ', hcall'.trans hcall⟩
  · exact conforms_step h.holds.disciplined hrely (fun call' ha => (hunstarted call' ha).elim)
      h.conforms hstep hσ
  · exact silent_step h.holds.disciplined hrely (fun _ _ _ _ _ hwrite => hwrite) h.conforms h.silent
      hstep hσ

theorem replaying_of_untouched (hholds : (protocol cfg).Holds t) (hterminal : Terminal t id row)
    (hσ : t.sessions sid = some σ) (huntouched : Untouched (server cfg) t.toShared sid σ)
    (hcall : σ.call.settles = some id) : Replaying cfg id row σ.call sid t := by
  refine ⟨hholds, hterminal, ⟨σ, hσ, rfl⟩, fun σ' hσ' => ?_, fun σ' hσ' => ?_⟩
  all_goals
    rw [hσ, some.injEq] at hσ'
    subst hσ'
  · refine conforms_of_untouched huntouched (fun key hkey => ?_) (handle_replay hcall hterminal.2)
    subst hkey
    exact AList.lookup_isSome.mp (by simp [hterminal.1])
  · exact ⟨huntouched.writes, huntouched.saved⟩

variable {rawWorker rawToken : String} {tenantId : Uuid}

theorem succeeded_of_chain {old : Option ProvisioningJobRow}
    (hchain : Chain (callWrites cfg (.complete id rawWorker rawToken completion)) readings (.job id) old new) :
    ∃ row slug worker completedAt now, old = some row ∧ row.status = .running ∧
      new = succeeded (completionResult slug worker completion completedAt) now row := by
  refine hchain.relates (R := fun old new => ∃ (row : ProvisioningJobRow) (slug worker : String)
    (completedAt now : Instant), old = some row ∧ row.status = .running ∧
      new = succeeded (completionResult slug worker completion completedAt) now row) ?_ ?_
  · intro rs access old new _ hwrite
    cases hwrite with
    | succeeded _ _ _ h worker token _ _ slug completedAt now row hclaim =>
      obtain ⟨-, -, -, rfl⟩ := h
      exact ⟨row, slug, worker, completedAt, now, rfl, hclaim.running, rfl⟩
    | planned h | requested h | approved h => exact h.elim
    | cancelled _ h | exhausted _ _ h | reapproved _ _ h | claimed _ _ h | renewed _ _ h
    | failed _ _ _ _ h => simp at h
  · rintro old mid new ⟨row, slug, worker, completedAt, now, -, -, rfl⟩
      ⟨row', _, _, _, _, hrow', hrunning, -⟩
    obtain rfl := some.inj hrow'
    simp [succeeded] at hrunning

theorem deployed_of_chain {old : Option TenantRow} {new : TenantRow}
    (hchain : Chain (callWrites cfg (.complete id rawWorker rawToken completion)) readings
      (.tenant tenantId) old new) :
    ∃ row now, old = some row ∧ new = deployed completion.workspaceId now row := by
  refine hchain.relates (R := fun old new => ∃ (row : TenantRow) (now : Instant),
    old = some row ∧ new = deployed completion.workspaceId now row) ?_ ?_
  · rintro rs access old new - ⟨hwrite, -⟩
    cases hwrite with
    | status _ h => exact h.elim
    | deployed _ _ _ _ h now row =>
      obtain ⟨-, -, -, rfl⟩ := h
      exact ⟨row, now, rfl, rfl⟩
  · rintro old mid new ⟨row, now, hrow, rfl⟩ ⟨row', now', hrow', rfl⟩
    obtain rfl := some.inj hrow'
    refine ⟨row, now', hrow, ?_⟩
    cases hstatus : row.status <;> simp [deployed, hstatus]

theorem redeployed_of_chain {old : Option RuntimeStatusRow} {new : RuntimeStatusRow}
    (hchain : Chain (callWrites cfg (.complete id rawWorker rawToken completion)) readings
      (.runtime tenantId) old new) :
    new = old.elim (unobserved tenantId completion) (redeployed completion) := by
  refine hchain.relates (R := fun old new =>
    new = old.elim (unobserved tenantId completion) (redeployed completion)) ?_ ?_
  · rintro rs access old new - hwrite
    cases hwrite with
    | report _ _ h => simp at h
    | deployed _ _ _ _ h old =>
      obtain ⟨-, -, -, rfl⟩ := h
      rfl
  · rintro old mid new rfl rfl
    cases old <;> rfl

/-- The first successful completion of a job, seen from outside: the job, its tenant and the
tenant's runtime row all change in one step. -/
def Completes (id : Uuid) (completion : ProvisioningCompletion) (t u : State) : Prop :=
  ∃ (job : ProvisioningJobRow) (tenant : TenantRow) (slug worker : String)
    (completedAt now now' : Instant),
    t.committed.lookup (.job id) = some job ∧ job.status = .running ∧
    u.committed.lookup (.job id) =
      some (succeeded (completionResult slug worker completion completedAt) now job) ∧
    t.committed.lookup (.tenant job.tenantId) = some tenant ∧
    u.committed.lookup (.tenant job.tenantId) =
      some (deployed completion.workspaceId now' tenant) ∧
    u.committed.lookup (.runtime job.tenantId) =
      some ((t.committed.lookup (.runtime job.tenantId)).elim (unobserved job.tenantId completion)
        (redeployed completion))

theorem completes_of_commit {choice : Choice Key} (hholds : (protocol cfg).Holds t)
    (hstep : step (server cfg) t (.run sid choice) = some u) (hσ : t.sessions sid = some σ)
    (hcall : σ.call = .complete id rawWorker rawToken completion) :
    u.committed = t.committed ∨ Completes id completion t u := by
  cases Protocol.outcome hstep hholds with
  | unchanged hsame => exact Or.inl hsame
  | commits sid' choice' call next tx ha hbefore hafter hcommitted =>
    obtain ⟨rfl, rfl⟩ := Action.run.inj ha
    rw [hbefore, some.injEq] at hσ
    subst hσ
    obtain rfl : call = _ := hcall
    obtain ⟨l, hm, -, hcommit, -⟩ := hholds.conforms sid _ hbefore _ rfl
    rw [← hm.writes] at hcommit
    obtain hempty | ⟨job, hjob, htenant, hruntime⟩ := hcommit
    · exact Or.inl (by rw [hcommitted, hempty, AList.empty_union])
    refine Or.inr ?_
    obtain ⟨tenant, htenant⟩ := isSome_iff_exists.mp (AList.lookup_isSome.mpr htenant)
    obtain ⟨runtime, hruntime⟩ := isSome_iff_exists.mp (AList.lookup_isSome.mpr hruntime)
    have hlinked := hholds.linked sid _ hbefore
    obtain ⟨row, slug, worker, completedAt, now, hrow, hrunning, rfl⟩ :=
      succeeded_of_chain (hlinked _ _ hjob)
    obtain ⟨old, now', hold, rfl⟩ := deployed_of_chain (hlinked _ _ htenant)
    obtain rfl := redeployed_of_chain (hlinked _ _ hruntime)
    refine ⟨row, old, slug, worker, completedAt, now, now', hrow, hrunning, ?_, hold, ?_, ?_⟩
    · rw [hcommitted, lookup_union, hjob, some_or]
    · rw [hcommitted, lookup_union]
      exact congrArg (Option.or · _) htenant
    · rw [hcommitted, lookup_union]
      exact congrArg (Option.or · _) hruntime

/-- **Terminal results are final and replay-safe.** A terminal job's row stays as it is. A
completion or failure that comes afterwards writes nothing, and is answered with the stored row if
it repeats the outcome, else refused; unless a session is in its way it gets its answer. A
completion changes nothing or the job, its tenant and its runtime row together; a suspended or
parked tenant keeps its status. -/
theorem terminal_final (hboot : Booted cfg s) (hreach : Reaches (server cfg) anyStep s t) :
    (∀ id (row : ProvisioningJobRow), t.committed.lookup (.job id) = some row →
      row.status.isActive = false →
      (∀ u, Reaches (server cfg) anyStep t u → u.committed.lookup (.job id) = some row) ∧
      ∀ sid σ, t.sessions sid = some σ → Untouched (server cfg) t.toShared sid σ →
        σ.call.settles = some id →
        (∀ u σ', Reaches (server cfg) anyStep t u → u.sessions sid = some σ' →
          σ'.txn.writes = ∅ ∧ σ'.txn.saved = ∅ ∧ ∀ answer, σ'.prog = some (.ret answer) →
            (σ.call.repeats row → answer = .ok (.job row false)) ∧
            (¬ σ.call.repeats row → ∃ e, answer = .error e)) ∧
        (Unhindered t.toShared sid → ∃ u answer tx, Reaches (server cfg) anyStep t u ∧
          u.sessions sid = some ⟨σ.call, some (.ret answer), tx⟩)) ∧
    ∀ sid choice σ id rawWorker rawToken completion u, t.sessions sid = some σ →
      σ.call = .complete id rawWorker rawToken completion →
      step (server cfg) t (.run sid choice) = some u →
        u.committed = t.committed ∨ Completes id completion t u ∧
          ∀ (job : ProvisioningJobRow) (tenant : TenantRow),
            t.committed.lookup (.job id) = some job →
            t.committed.lookup (.tenant job.tenantId) = some tenant →
            tenant.status = .suspended ∨ tenant.status = .parked →
            ∃ tenant' : TenantRow, u.committed.lookup (.tenant job.tenantId) = some tenant' ∧
              tenant'.status = tenant.status := by
  have hholds := holds_of_reaches hboot hreach
  refine ⟨fun id row hrow hstatus => ⟨fun u hreach' => ?_, ?_⟩, ?_⟩
  · exact (hreach'.invariant (I := fun v => (protocol cfg).Holds v ∧ Terminal v id row)
      (fun _ _ _ hv _ hstep => ⟨hv.1.step protocol_metBy hstep, terminal_step hv.1 hv.2 hstep⟩)
      ⟨hholds, hrow, hstatus⟩).2.1
  · intro sid σ hσ huntouched hcall
    refine ⟨fun u σ' hreach' hσ' => ?_, fun halone => ?_⟩
    · have hinit := replaying_of_untouched hholds ⟨hrow, hstatus⟩ hσ huntouched hcall
      have hfinal := hreach'.invariant (fun _ _ _ hv _ hstep => replaying_step hv hstep) hinit
      obtain ⟨hwrites, hsaved⟩ := hfinal.silent σ' hσ'
      refine ⟨hwrites, hsaved, fun answer hanswer => ?_⟩
      obtain ⟨l, -, hreplayed⟩ := hfinal.conforms σ' hσ' _ hanswer
      exact hreplayed
    · obtain ⟨p, hp, -⟩ := huntouched.prog
      have hsession : t.sessions sid = some ⟨σ.call, some p, σ.txn⟩ := by rw [hσ, ← hp]
      obtain ⟨u, answer, tx, hreach', hret⟩ := hholds.finishes protocol_metBy halone hsession
      exact ⟨u, answer, tx, hreach'.mono fun _ _ _ => trivial, hret⟩
  · intro sid choice σ id rawWorker rawToken completion u hσ hcall hstep
    refine (completes_of_commit hholds hstep hσ hcall).imp_right fun hcompletes => ⟨hcompletes, ?_⟩
    obtain ⟨job, tenant, slug, worker, completedAt, now, now', hjob, -, -, htenant, htenant', -⟩ :=
      hcompletes
    intro job' tenant₁ hjob' htenant₁ hkept
    rw [hjob, some.injEq] at hjob'
    subst hjob'
    rw [htenant, some.injEq] at htenant₁
    subst htenant₁
    exact ⟨_, htenant', by simp [deployed, hkept]⟩

def demoCompletion : ProvisioningCompletion :=
  ⟨8080, 7, 1, "0123456789012345678901234567890123456789"⟩

def demoComplete : Call := .complete 100 "worker-1" (Uuid.simple 101) demoCompletion

def completed (s : State) : Bool :=
  ((s.committed.lookup (.job 100)).any fun row : ProvisioningJobRow =>
    row.status = .succeeded && provisioningSuccessMatches row "worker-1" demoCompletion) &&
    (s.sessions 3).isNone

theorem terminal_final_replayed :
    ∃ (t u : State) (row : ProvisioningJobRow), ∃ σ,
      Reaches (server demoConfig) anyStep t u ∧ t.committed.lookup (.job 100) = some row ∧
      row.status = .succeeded ∧ u.sessions 3 = some σ ∧
      σ.prog = some (.ret (.ok (.job row false))) := by
  have hrun : (runSchedule (server demoConfig) demoState
      (claimSchedule ++ alone 2 demoComplete 15)).bind (fun s =>
        (runSchedule (server demoConfig) s (alone 3 demoComplete 4)).map fun u =>
          (completed s, (u.returned 3).isSome)) = some (true, true) := by decide
  obtain ⟨s, hschedule, hmap⟩ := bind_eq_some_iff.mp hrun
  obtain ⟨u, hschedule', heq⟩ := map_eq_some_iff.mp hmap
  simp only [completed, Prod.mk.injEq, Bool.and_eq_true, isNone_iff_eq_none] at heq
  obtain ⟨⟨hjob, hnew⟩, hanswered⟩ := heq
  obtain ⟨row, hrow, hmatch⟩ := (any_eq_true _ _).mp hjob
  simp only [Bool.and_eq_true, decide_eq_true_eq] at hmatch
  -- the repeated call begins in a state where its session holds nothing
  obtain ⟨t, hstart, hrest⟩ := bind_eq_some_iff.mp hschedule'
  have hreach := reaches_of_runSchedule hschedule
  have hfree := (holds_of_reaches (demo_booted demoConfig) hreach).disciplined.unstarted 3 hnew
  have hreach' : Reaches (server demoConfig) anyStep demoState t := .tail hreach trivial hstart
  obtain ⟨_, _, _, rfl⟩ := step_cases hstart
  have huntouched : Untouched (server demoConfig) s.toShared 3
      ⟨demoComplete, some ((server demoConfig).handler demoComplete), .idle⟩ :=
    ⟨⟨_, rfl, .refl _⟩, rfl, rfl, rfl, hfree⟩
  have hfinal := ((terminal_final (demo_booted demoConfig) hreach').1 100 row hrow
    (by simp [hmatch.1, JobStatus.isActive])).2 3 _ (setSession_self ..) huntouched rfl
  unfold Sys.returned at hanswered
  split at hanswered
  · rename_i call answer tx hσ
    have hrepeats : demoComplete.repeats row :=
      ⟨"worker-1", Uuid.simple 101, by decide, by decide, by decide,
        hmatch.1, provisioningSuccessMatches_iff.mp hmatch.2⟩
    have hreplayed := (hfinal.1 u _ (reaches_of_runSchedule hrest) hσ).2.2 answer rfl
    obtain rfl := hreplayed.1 hrepeats
    exact ⟨_, u, row, _, reaches_of_runSchedule hrest, hrow, hmatch.1, hσ, rfl⟩
  · simp at hanswered

end ControlPlane
