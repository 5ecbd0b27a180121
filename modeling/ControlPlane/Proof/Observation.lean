import ControlPlane.Proof.Finality
import ControlPlane.Proof.Telemetry

/-!
# Health after a deploy

A completion takes back what was observed of the old build but leaves the times, so the health is
unknown only if nothing was ever received.
-/

namespace ControlPlane

open ReadCommitted Store Option

variable {cfg : Config} {s t u v : State} {a : Action Key Call} {tenantId : Uuid}
  {row : RuntimeStatusRow} {old : Option RuntimeStatusRow} {completion : ProvisioningCompletion}
  {seen : Option Instant}

def observedAt (row : RuntimeStatusRow) : Option Instant :=
  row.checkedAt.map fun checkedAt => row.lastHeartbeatAt.elim checkedAt (min checkedAt)

def Unflagged (row : RuntimeStatusRow) : Prop :=
  row.apiHealthy = none ∧ row.workerHealthy = none

theorem classify_unflagged (hflags : Unflagged row) (now : Instant) (staleAfter : Int) :
    RuntimeHealth.classify (some row) now staleAfter =
      (observedAt row).elim .unknown fun time =>
        if time < now - seconds (max staleAfter 1) then .stale else .unknown := by
  obtain ⟨hapi, hworker⟩ := hflags
  cases hchecked : row.checkedAt with
  | none => simp [RuntimeHealth.classify, observedAt, hchecked]
  | some checkedAt =>
    cases hbeat : row.lastHeartbeatAt <;>
      simp [RuntimeHealth.classify, observedAt, hchecked, hbeat, hapi, hworker]

def Unreported (tenantId : Uuid) (t : State) (a : Action Key Call) : Prop :=
  ∀ u input, Step.telemetry tenantId ⟨t, a, u⟩ ≠ some (.report input)

def Awaiting (tenantId : Uuid) (seen : Option Instant) (t : State) : Prop :=
  ∃ row : RuntimeStatusRow, t.committed.lookup (.runtime tenantId) = some row ∧ Unflagged row ∧
    observedAt row = seen

theorem observedAt_completion :
    observedAt (old.elim (unobserved tenantId completion) (redeployed completion)) =
      old.bind observedAt := by
  cases old <;> rfl

theorem unflagged_completion :
    Unflagged (old.elim (unobserved tenantId completion) (redeployed completion)) := by
  cases old <;> exact ⟨rfl, rfl⟩

theorem awaiting_of_completion (hholds : (protocol cfg).Holds t)
    (hstep : step (server cfg) t a = some u)
    (hevent : Step.telemetry tenantId ⟨t, a, u⟩ = some (.completion completion)) :
    Awaiting tenantId ((t.committed.lookup (.runtime tenantId)).bind observedAt) u := by
  obtain ⟨call, hcall, htelemetry⟩ := bind_eq_some_iff.mp hevent
  obtain ⟨new, readings, hnew, hchain⟩ := Protocol.chain_of_committing hstep hholds hcall
  cases call with
  | complete id worker token completion' =>
    obtain rfl := redeployed_of_chain hchain
    exact ⟨_, hnew, unflagged_completion, observedAt_completion⟩
  | _ => simp [Call.telemetry] at htelemetry

theorem awaiting_step (hholds : (protocol cfg).Holds t) (hawaiting : Awaiting tenantId seen t)
    (hunreported : Unreported tenantId t a) (hstep : step (server cfg) t a = some u) :
    Awaiting tenantId seen u := by
  obtain ⟨row, hrow, hflags, hseen⟩ := hawaiting
  cases htelemetry : Step.telemetry tenantId ⟨t, a, u⟩ with
  | none => exact ⟨row, (lookup_of_no_telemetry hholds hstep htelemetry).trans hrow, hflags, hseen⟩
  | some event =>
    cases event with
    | report input => exact absurd htelemetry (hunreported u input)
    | completion completion =>
      have hagain := awaiting_of_completion hholds hstep htelemetry
      rw [hrow, bind_some, hseen] at hagain
      exact hagain

theorem awaiting_of_reaches (hholds : (protocol cfg).Holds t) (hawaiting : Awaiting tenantId seen t)
    (hreach : Reaches (server cfg) (Unreported tenantId) t u) : Awaiting tenantId seen u := by
  refine (hreach.invariant (I := fun v => (protocol cfg).Holds v ∧ Awaiting tenantId seen v)
    (fun _ _ _ hv hok hstep => ⟨?_, ?_⟩) ⟨hholds, hawaiting⟩).2
  · exact hv.1.step protocol_metBy hstep
  · exact awaiting_step hv.1 hv.2 hok hstep

def healthOf (cfg : Config) (tenantId : Uuid) (t : State) : RuntimeHealth :=
  .classify (t.committed.lookup (.runtime tenantId)) t.clock cfg.runtimeStaleAfterSeconds

theorem Awaiting.healthOf_eq (hawaiting : Awaiting tenantId seen t) :
    healthOf cfg tenantId t = seen.elim .unknown fun time =>
      if time < t.clock - seconds (max cfg.runtimeStaleAfterSeconds 1) then .stale else .unknown := by
  obtain ⟨row, hrow, hflags, rfl⟩ := hawaiting
  rw [healthOf, hrow, classify_unflagged hflags]

theorem Awaiting.exists_stale {time : Instant} (hawaiting : Awaiting tenantId (some time) t)
    (cfg : Config) :
    ∃ u, Reaches (server cfg) (Unreported tenantId) t u ∧ healthOf cfg tenantId u = .stale := by
  have hpasses (observed clock limit : Int) : ∃ elapsed : Nat, observed < clock + elapsed - limit :=
    ⟨(observed - clock + limit + 1).toNat, by omega⟩
  obtain ⟨elapsed, hlate⟩ := hpasses time t.clock (seconds (max cfg.runtimeStaleAfterSeconds 1))
  have hquiet : Unreported tenantId t (.tick elapsed) := by
    intro u input
    simp [Step.telemetry, Protocol.committing]
  have htick : step (server cfg) t (.tick elapsed) = some { t with clock := t.clock + elapsed } := rfl
  refine ⟨_, .tail (.refl t) hquiet htick, ?_⟩
  obtain ⟨row, hrow, hflags, hseen⟩ := hawaiting
  have hlater : Awaiting tenantId (some time) { t with clock := t.clock + elapsed } :=
    ⟨row, hrow, hflags, hseen⟩
  rw [hlater.healthOf_eq, elim_some, if_pos hlate]

/-- **A finished deploy is unknown until it is observed** exactly if nothing was received of the old
build: until another report the health stays unknown if and only if the runtime row the completion
met had no receipt. -/
theorem deploy_unknown_iff_unreceived {id : Uuid} {rawWorker rawToken : String}
    {completion : ProvisioningCompletion} {sid : Nat} {choice : Choice Key}
    {σ : Session Row ManagementRequest (Except ApiError Json) Call (Except ApiError Reply)}
    {job : ProvisioningJobRow} (hboot : Booted cfg s) (hreach : Reaches (server cfg) anyStep s t)
    (hσ : t.sessions sid = some σ) (hcall : σ.call = .complete id rawWorker rawToken completion)
    (hstep : step (server cfg) t (.run sid choice) = some u) (hcommit : u.committed ≠ t.committed)
    (hjob : t.committed.lookup (.job id) = some job) :
    (∀ v, Reaches (server cfg) (Unreported job.tenantId) u v →
      healthOf cfg job.tenantId v = .unknown) ↔
      ∀ row : RuntimeStatusRow, t.committed.lookup (.runtime job.tenantId) = some row →
        row.checkedAt = none := by
  have hholds := holds_of_reaches hboot hreach
  have hholds' := hholds.step protocol_metBy hstep
  obtain hsame | hcompletes := completes_of_commit hholds hstep hσ hcall
  · exact absurd hsame hcommit
  obtain ⟨job', tenant, slug, worker, completedAt, now, now', hjob', -, -, -, -, hruntime⟩ :=
    hcompletes
  rw [hjob, some.injEq] at hjob'
  subst hjob'
  have hawaiting : Awaiting job.tenantId
      ((t.committed.lookup (.runtime job.tenantId)).bind observedAt) u :=
    ⟨_, hruntime, unflagged_completion, observedAt_completion⟩
  constructor
  · intro hunknown row hrow
    by_contra hchecked
    obtain ⟨checkedAt, hchecked⟩ := ne_none_iff_exists'.mp hchecked
    rw [hrow, bind_some, observedAt, hchecked, map_some] at hawaiting
    obtain ⟨v, hlater, hstale⟩ := hawaiting.exists_stale cfg
    exact absurd ((hunknown v hlater).symm.trans hstale) (by decide)
  · intro hnever v hlater
    have hnone : (t.committed.lookup (.runtime job.tenantId)).bind observedAt = none := by
      refine bind_eq_none_iff.mpr fun row hrow => ?_
      rw [observedAt, hnever row hrow, map_none]
    rw [hnone] at hawaiting
    exact (awaiting_of_reaches hholds' hawaiting hlater).healthOf_eq

def demoDeploy (earlier : List (Action Key Call)) : Option (State × State) :=
  (runSchedule (server demoConfig) demoState (claimSchedule ++ earlier ++ alone 3 demoComplete 14)).bind
    fun t => (step (server demoConfig) t (.run 3 ⟨[], .answered⟩)).map (t, ·)

def completes (p : State × State) : Bool :=
  ((p.1.sessions 3).any fun σ =>
    match σ.call with
    | .complete id _ _ _ => id = 100
    | _ => false) &&
    ((p.1.committed.lookup (.job 100)).any fun job : ProvisioningJobRow => job.tenantId = 1) &&
    jobStatus p.1 100 ≠ jobStatus p.2 100

structure DemoCommit (t u : State) : Prop where
  reached : Reaches (server demoConfig) anyStep demoState t
  step : step (server demoConfig) t (.run 3 ⟨[], .answered⟩) = some u
  changed : u.committed ≠ t.committed
  call : ∃ σ worker token completion, t.sessions 3 = some σ ∧
    σ.call = .complete 100 worker token completion
  job : ∃ job : ProvisioningJobRow, t.committed.lookup (.job 100) = some job ∧ job.tenantId = 1

theorem demoCommit_of_deploy {earlier : List (Action Key Call)}
    (hdeploy : demoDeploy earlier = some (t, u)) (hcompletes : completes (t, u) = true) :
    DemoCommit t u := by
  obtain ⟨t', hschedule, hmap⟩ := bind_eq_some_iff.mp hdeploy
  obtain ⟨u', hstep, heq⟩ := map_eq_some_iff.mp hmap
  obtain ⟨rfl, rfl⟩ := Prod.mk.inj heq
  simp only [completes, Bool.and_eq_true, decide_eq_true_eq] at hcompletes
  obtain ⟨⟨hsession, hjob⟩, hstatus⟩ := hcompletes
  refine ⟨reaches_of_runSchedule hschedule, hstep, fun hsame => ?_, ?_, ?_⟩
  · exact hstatus (by rw [jobStatus, jobStatus, hsame])
  · obtain ⟨σ, hσ, hcall⟩ := (any_eq_true _ _).mp hsession
    cases hkind : σ.call <;> simp only [hkind, Bool.false_eq_true, decide_eq_true_eq] at hcall
    exact ⟨σ, _, _, _, hσ, hcall ▸ hkind⟩
  · obtain ⟨job, hlookup, htenant⟩ := (any_eq_true _ _).mp hjob
    exact ⟨job, hlookup, of_decide_eq_true htenant⟩

theorem deploy_unknown_iff_unreceived_first :
    ∃ t u, DemoCommit t u ∧ ∀ v, Reaches (server demoConfig) (Unreported 1) u v →
      healthOf demoConfig 1 v = .unknown := by
  have hrun : (demoDeploy []).any (fun p =>
      completes p && (p.1.committed.lookup (.runtime 1)).isNone) = true := by decide
  obtain ⟨⟨t, u⟩, hdeploy, hfacts⟩ := (any_eq_true _ _).mp hrun
  rw [Bool.and_eq_true, isNone_iff_eq_none] at hfacts
  have hcommit := demoCommit_of_deploy hdeploy hfacts.1
  obtain ⟨σ, worker, token, completion, hσ, hcall⟩ := hcommit.call
  obtain ⟨job, hjob, htenant⟩ := hcommit.job
  have hiff := deploy_unknown_iff_unreceived (demo_booted demoConfig) hcommit.reached hσ hcall
    hcommit.step hcommit.changed hjob
  rw [htenant] at hiff
  refine ⟨t, u, hcommit, hiff.mpr fun row hrow => ?_⟩
  rw [hfacts.2] at hrow
  cases hrow

/-- The old build has reported. Six minutes after the new one is deployed, and with nothing reported of
it, the runtime reads stale. -/
theorem deploy_stale_unobserved :
    ∃ t u v, DemoCommit t u ∧ Reaches (server demoConfig) (Unreported 1) u v ∧
      healthOf demoConfig 1 v = .stale := by
  have hrun : (demoDeploy (alone 2 (demoReport 10 0) 9)).any (fun p =>
      completes p && healthOf demoConfig 1 { p.2 with clock := p.2.clock + 360000000 } = .stale) =
      true := by decide
  obtain ⟨⟨t, u⟩, hdeploy, hfacts⟩ := (any_eq_true _ _).mp hrun
  rw [Bool.and_eq_true, decide_eq_true_eq] at hfacts
  have hquiet : Unreported 1 u (.tick 360000000) := by
    intro v input
    simp [Step.telemetry, Protocol.committing]
  exact ⟨t, u, _, demoCommit_of_deploy hdeploy hfacts.1, .tail (.refl u) hquiet rfl, hfacts.2⟩

end ControlPlane
