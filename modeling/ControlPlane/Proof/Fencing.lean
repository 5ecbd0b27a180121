import ControlPlane.Proof.Jobs

/-!
# Claim fencing

The row of a running job carries the worker and the token hash of the last claim handed out for it.
With a collision-free digest only that worker renews, completes or fails it.
-/

namespace ControlPlane

open ReadCommitted Store Option

def Step.claim (e : Step) : Option (String × Option String × ProvisioningClaim) :=
  match e.action with
  | .run sid _ =>
    match e.after.sessions sid with
    | some ⟨.claim rawWorker rawRegion, some (.ret (.ok (.claim (some claim)))), _⟩ =>
      some (rawWorker, rawRegion, claim)
    | _ => none
  | _ => none

def Step.handsOut (id : Uuid) (e : Step) : Option (String × String) :=
  e.claim.bind fun (rawWorker, _, claim) =>
    if claim.job.id = id then
      (Validation.workerId rawWorker).toOption.map fun worker => (worker, claim.claimToken)
    else none

def lastClaim (history : List Step) (id : Uuid) : Option (String × String) :=
  history.findSome? (Step.handsOut id)

def Call.presents : Call → Option (Uuid × String × String)
  | .renew id worker token | .complete id worker token _ | .fail id worker token _ _ =>
    some (id, worker, token)
  | _ => none

variable {cfg : Config} {s t u : State} {a : Action Key Call}

variable {rawWorker : String} {rawRegion : Option String} {claim : ProvisioningClaim}

theorem Step.claim_eq_some (hclaim : Step.claim ⟨t, a, u⟩ = some (rawWorker, rawRegion, claim)) :
    ∃ sid choice tx, a = .run sid choice ∧ u.sessions sid =
      some ⟨.claim rawWorker rawRegion, some (.ret (.ok (.claim (some claim)))), tx⟩ := by
  unfold Step.claim at hclaim
  split at hclaim
  · rename_i sid choice ha
    split at hclaim
    · rename_i w r c tx hsession
      cases hclaim
      exact ⟨sid, choice, tx, ha, hsession⟩
    · simp at hclaim
  · simp at hclaim

theorem commits_of_claim (hholds : (protocol cfg).Holds t) (hstep : step (server cfg) t a = some u)
    (hclaim : Step.claim ⟨t, a, u⟩ = some (rawWorker, rawRegion, claim)) :
    u.committed.lookup (.job claim.job.id) = some claim.job ∧ claim.job.status = .running ∧
      claim.job.claimTokenHash = some (cfg.sha256 claim.claimToken) ∧
      (∃ worker, Validation.workerId rawWorker = .ok worker ∧ claim.job.claimedBy = some worker) ∧
      ∃ readings, Chain (callWrites cfg (.claim rawWorker rawRegion)) readings (.job claim.job.id)
        (t.committed.lookup (.job claim.job.id)) claim.job := by
  obtain ⟨sid, choice, tx', rfl, hafter⟩ := Step.claim_eq_some hclaim
  have hholds' := hholds.step protocol_metBy hstep
  obtain ⟨l, hm, hanswer⟩ := hholds'.conforms sid _ hafter _ rfl
  obtain ⟨hsaved, hstatus, hhash, hworker⟩ := hanswer.taken claim rfl
  rw [← hm.saved] at hsaved
  obtain ⟨⟩ | ⟨_, _, call, o, next, tx, answer, sh', tx'', hsession, hexec, rfl⟩ := step_cases hstep
  rw [setSession_self, some.injEq, Session.mk.injEq] at hafter
  obtain ⟨rfl, -, rfl⟩ := hafter
  -- before this step the session had nothing saved, so the step itself is the commit
  obtain ⟨l', hm', hresume, -⟩ := hholds.conforms sid _ hsession _ rfl
  have hempty : tx.saved = ∅ := hm'.saved.trans hresume
  have heffect := ((hholds.conforms sid _ hsession).exec hholds.inv hexec).1
  have hfresh : tx''.saved ≠ tx.saved := by
    intro hsame
    rw [hsame, hempty] at hsaved
    simp at hsaved
  cases heffect with
  | quiet _ _ _ hsame => exact absurd hsame hfresh
  | refused => exact absurd rfl hfresh
  | aborted => exact absurd rfl hfresh
  | placed _ _ _ _ _ _ _ _ hplace =>
    obtain ⟨-, rfl⟩ := hplace
    exact absurd rfl hfresh
  | committed hop =>
    refine ⟨?_, hstatus, hhash, hworker, tx.readings, hholds.linked sid _ hsession _ _ hsaved⟩
    simp only [setSession_toShared, settle, lookup_visible]
    rw [hsaved, some_or]

variable {id : Uuid}

theorem Step.handsOut_eq_some {worker token : String}
    (hout : Step.handsOut id ⟨t, a, u⟩ = some (worker, token)) :
    ∃ rawWorker rawRegion claim, Step.claim ⟨t, a, u⟩ = some (rawWorker, rawRegion, claim) ∧
      claim.job.id = id ∧ Validation.workerId rawWorker = .ok worker ∧ claim.claimToken = token := by
  obtain ⟨⟨rawWorker, rawRegion, claim⟩, hclaim, hout⟩ := bind_eq_some_iff.mp hout
  simp only at hout
  split_ifs at hout with hid
  obtain ⟨worker', hworker', heq⟩ := map_eq_some_iff.mp hout
  obtain ⟨rfl, rfl⟩ := heq
  refine ⟨rawWorker, rawRegion, claim, hclaim, hid, ?_, rfl⟩
  cases hraw : Validation.workerId rawWorker with
  | error e => simp [hraw, Except.toOption] at hworker'
  | ok w => simpa [hraw, Except.toOption] using hworker'

def Carried (cfg : Config) (row : ProvisioningJobRow) (claim : String × String) : Prop :=
  row.claimedBy = some claim.1 ∧ row.claimTokenHash = some (cfg.sha256 claim.2)

def ClaimsKnown (cfg : Config) (history : List Step) (t : State) : Prop :=
  ∀ id (row : ProvisioningJobRow), t.committed.lookup (.job id) = some row →
    row.status = .running → ∃ claim, lastClaim history id = some claim ∧ Carried cfg row claim

variable {readings : List Instant} {access : Access} {old : Option ProvisioningJobRow}
  {new : ProvisioningJobRow} {call : Call} {history : List Step}

theorem running_of_write (hcall : ∀ worker region, call ≠ .claim worker region)
    (hwrite : JobWrite cfg call readings id access old new) (hrunning : new.status = .running) :
    ∃ row, old = some row ∧ row.status = .running ∧ row.claimedBy = new.claimedBy ∧
      row.claimTokenHash = new.claimTokenHash := by
  cases hwrite with
  | renewed _ _ _ _ _ _ _ lease now row hclaim => exact ⟨row, rfl, hclaim.running, rfl, rfl⟩
  | exhausted worker region h | reapproved worker region h | claimed worker region h =>
    exact absurd h (hcall worker region)
  | planned | requested | approved | cancelled | succeeded | failed =>
    simp [newJob, approvePlan, Store.cancelled, Store.succeeded, Store.failed] at hrunning

theorem running_of_chain (hcall : ∀ worker region, call ≠ .claim worker region)
    (hchain : Chain (callWrites cfg call) readings (.job id) old new)
    (hrunning : new.status = .running) :
    ∃ row, old = some row ∧ row.status = .running ∧ row.claimedBy = new.claimedBy ∧
      row.claimTokenHash = new.claimTokenHash := by
  refine hchain.relates (R := fun old (new : ProvisioningJobRow) => new.status = .running →
    ∃ row : ProvisioningJobRow, old = some row ∧ row.status = .running ∧
      row.claimedBy = new.claimedBy ∧ row.claimTokenHash = new.claimTokenHash)
    (fun _ _ _ _ _ hwrite => running_of_write hcall hwrite) ?_ hrunning
  intro old mid new hfirst hsecond hnew
  obtain ⟨row, hrow, hrunning, hworker, hhash⟩ := hsecond hnew
  obtain rfl := some.inj hrow
  obtain ⟨row', hrow', hrunning', hworker', hhash'⟩ := hfirst hrunning
  exact ⟨row', hrow', hrunning', hworker'.trans hworker, hhash'.trans hhash⟩

theorem claim_of_commit (hholds : (protocol cfg).Holds u) {sid : Nat} (choice : Choice Key)
    {row : ProvisioningJobRow}
    {p : Prog Row ManagementRequest (Except ApiError Json) (Except ApiError Reply)} {tx : Txn Row}
    (hafter : u.sessions sid = some ⟨.claim rawWorker rawRegion, some p, tx⟩)
    (hsaved : tx.saved.lookup (.job id) = some row) (hrunning : row.status = .running) :
    ∃ claim, Step.claim ⟨t, .run sid choice, u⟩ = some (rawWorker, rawRegion, claim) ∧
      claim.job = row := by
  obtain ⟨l, hm, hwp⟩ := hholds.conforms sid _ hafter p rfl
  rw [hm.saved] at hsaved
  cases p with
  | op o next =>
    have hempty : l.saved = ∅ := hwp.1
    simp [hempty] at hsaved
  | ret answer =>
    obtain ⟨claim, rfl, hjob⟩ := HandsOut.given hwp id row hsaved hrunning
    exact ⟨claim, by simp [Step.claim, hafter], hjob⟩

theorem claimsKnown_step (hholds : (protocol cfg).Holds t) (hknown : ClaimsKnown cfg history t)
    (hstep : step (server cfg) t a = some u) : ClaimsKnown cfg (⟨t, a, u⟩ :: history) u := by
  intro id row hrow hrunning
  have hholds' := hholds.step protocol_metBy hstep
  cases hout : Step.handsOut id ⟨t, a, u⟩ with
  | some claim =>
    -- the step hands the job out, and the committed row is the one it handed out
    obtain ⟨worker, token⟩ := claim
    refine ⟨(worker, token), by simp [lastClaim, hout], ?_⟩
    obtain ⟨rawWorker, rawRegion, claim, hclaim, rfl, hworker, rfl⟩ := Step.handsOut_eq_some hout
    obtain ⟨hnow, -, hhash, ⟨worker', hworker', hclaimedBy⟩, -⟩ := commits_of_claim hholds hstep hclaim
    rw [hnow, some.injEq] at hrow
    rw [hworker, Except.ok.injEq] at hworker'
    exact hrow ▸ ⟨hworker' ▸ hclaimedBy, hhash⟩
  | none =>
    have hlast : lastClaim (⟨t, a, u⟩ :: history) id = lastClaim history id := by
      simp [lastClaim, hout]
    rw [hlast]
    by_cases hchange : u.committed.lookup (.job id) = t.committed.lookup (.job id)
    · exact hknown id row (hchange ▸ hrow) hrunning
    · obtain ⟨sid, choice, call, next, tx, new, rfl, hbefore, hafter, hwritten, hnow, hchain⟩ :=
        Protocol.changed hstep hholds hchange
      obtain rfl : new = row := by rw [hnow] at hrow; exact some.inj hrow
      have hcall : ∀ rawWorker rawRegion, call ≠ .claim rawWorker rawRegion := by
        rintro rawWorker rawRegion rfl
        obtain ⟨claim, hclaim, hjob⟩ := claim_of_commit (t := t) hholds' choice hafter hwritten
          hrunning
        obtain ⟨hcommitted, -, -, ⟨worker, hworker, -⟩, -⟩ := commits_of_claim hholds hstep hclaim
        have hid : claim.job.id = id := by
          rw [hjob]
          exact (hholds'.inv (.job id) new hnow).keyed
        simp [Step.handsOut, hclaim, hid, hworker, Except.toOption] at hout
      obtain ⟨old, hold, holdRunning, hworker, hhash⟩ := running_of_chain hcall hchain hrunning
      obtain ⟨claim, hclaim, hcarried⟩ := hknown id old hold holdRunning
      exact ⟨claim, hclaim, hworker ▸ hcarried.1, hhash ▸ hcarried.2⟩

theorem claimsKnown_of_run (hboot : Booted cfg s) (hrun : Run (server cfg) anyStep s history t) :
    ClaimsKnown cfg history t := by
  induction hrun with
  | nil =>
    intro id row hrow hrunning
    cases hboot.jobs id row hrow <;> simp [registration, newJob] at hrunning
  | cons hprior _ hstep ih =>
    exact claimsKnown_step (holds_of_reaches hboot hprior.reaches) ih hstep

/-- A provisioner's write was made under a claim, judged by the first clock reading of the call. -/
theorem holdsClaim_of_write {id' : Uuid} {rawToken : String}
    (hcall : call.presents = some (id, rawWorker, rawToken))
    (hwrite : JobWrite cfg call readings id' access old new) :
    id' = id ∧ ∃ worker token row, Validation.workerId rawWorker = .ok worker ∧
      Validation.claimToken rawToken = .ok token ∧ old = some row ∧
      HoldsClaim cfg worker token readings row := by
  cases hwrite with
  | renewed _ _ h worker token hworker htoken _ _ row hclaim
  | succeeded _ _ _ h worker token hworker htoken _ _ _ row hclaim
  | failed _ _ _ _ h worker token _ _ hworker htoken _ _ row hclaim =>
    subst h
    obtain ⟨rfl, rfl, rfl⟩ := hcall
    exact ⟨rfl, worker, token, row, hworker, htoken, rfl, hclaim⟩
  | planned h | requested h | approved h =>
    cases call <;> simp [Call.presents, Call.plans] at h hcall
  | cancelled _ h | exhausted _ _ h | reapproved _ _ h | claimed _ _ h =>
    subst h
    simp [Call.presents] at hcall

theorem getLast?_of_suffix {xs ys : List Instant} {x : Instant} (hsuffix : xs <:+ ys)
    (hlast : xs.getLast? = some x) : ys.getLast? = some x := by
  obtain ⟨front, rfl⟩ := hsuffix
  rw [List.getLast?_append, hlast, some_or]

theorem region_of_claimed
    (hwrite : JobWrite cfg (.claim rawWorker rawRegion) readings id access old new)
    (hrunning : new.status = .running)
    (hschema : new.plan.textAt "schema" = some "4" ∨ new.plan.textAt "schema" = some "5") :
    ∃ region, Validation.dataRegion rawRegion = .ok (some region) ∧
      new.plan.textAtPath "regionalProfile" "dataRegion" = some region := by
  cases hwrite with
  | claimed _ _ h _ region _ hregion _ _ _ row hclaimable =>
    obtain ⟨-, rfl⟩ := h
    simp only [isClaimable, servesPlan, Bool.and_eq_true, Bool.or_eq_true, decide_eq_true_eq]
      at hclaimable
    simp only [claimed] at hschema ⊢
    obtain h3 | ⟨⟨-, hsome⟩, hequal⟩ := hclaimable.2
    · rw [h3] at hschema
      simp at hschema
    · obtain ⟨r, rfl⟩ := isSome_iff_exists.mp hsome
      exact ⟨r, hregion, hequal⟩
  | exhausted | reapproved => simp [exhausted, reapproved] at hrunning
  | planned h | requested h | approved h => exact h.elim
  | cancelled _ h | renewed _ _ h | succeeded _ _ _ h | failed _ _ _ _ h => simp at h

/-- **Claim fencing.** At every step of every run: a renewal, completion or failure that changes a
job names it, its caller is the worker of the job's latest claim with the token handed out then, and
the lease had not expired by the first clock reading of the call. A step that hands out a job whose
plan has schema 4 or 5 answers a worker that announced the plan's data region. -/
theorem claim_fencing (hinj : Function.Injective cfg.sha256) (hboot : Booted cfg s)
    {history : List Step} (hrun : Run (server cfg) anyStep s history t)
    (hstep : step (server cfg) t a = some u) :
    (∀ sid choice σ id rawWorker rawToken id', a = .run sid choice → t.sessions sid = some σ →
      σ.call.presents = some (id, rawWorker, rawToken) →
      u.committed.lookup (.job id') ≠ t.committed.lookup (.job id') →
      id' = id ∧ ∃ worker token, Validation.workerId rawWorker = .ok worker ∧
        Validation.claimToken rawToken = .ok token ∧ lastClaim history id = some (worker, token) ∧
        ∃ (row : ProvisioningJobRow) (deadline now : Instant),
          t.committed.lookup (.job id) = some row ∧ row.leaseExpiresAt = some deadline ∧
          σ.txn.readings.getLast? = some now ∧ now < deadline) ∧
    ∀ rawWorker rawRegion claim,
      Step.claim ⟨t, a, u⟩ = some (rawWorker, rawRegion, claim) →
      claim.job.plan.textAt "schema" = some "4" ∨ claim.job.plan.textAt "schema" = some "5" →
      ∃ region, Validation.dataRegion rawRegion = .ok (some region) ∧
        claim.job.plan.textAtPath "regionalProfile" "dataRegion" = some region := by
  have hholds := holds_of_reaches hboot hrun.reaches
  refine ⟨?_, fun rawWorker rawRegion claim hclaim hschema => ?_⟩
  · rintro sid choice σ id rawWorker rawToken id' rfl hσ hcall hchange
    obtain ⟨sid', _, call, next, tx, new, ha, hbefore, -, -, -, hchain⟩ :=
      Protocol.changed hstep hholds hchange
    obtain ⟨rfl, -⟩ := Action.run.inj ha
    rw [hbefore, some.injEq] at hσ
    subst hσ
    obtain ⟨rs, access, mid, hrs, hwrite⟩ := hchain.first
    obtain ⟨rfl, worker, token, row, hworker, htoken, hold, hclaim⟩ :=
      holdsClaim_of_write hcall hwrite
    obtain ⟨deadline, now, hlease, hnow, hlt⟩ := hclaim.lease
    obtain ⟨⟨worker', token'⟩, hlast, hby, hhash⟩ :=
      claimsKnown_of_run hboot hrun id' row hold hclaim.running
    rw [hclaim.worker, some.injEq] at hby
    rw [hclaim.token, some.injEq] at hhash
    refine ⟨rfl, worker, token, hworker, htoken, ?_, row, deadline, now, hold, hlease,
      getLast?_of_suffix hrs hnow, hlt⟩
    rw [hlast, hby, hinj hhash]
  · obtain ⟨-, hstatus, -, -, readings, hchain⟩ := commits_of_claim hholds hstep hclaim
    obtain ⟨rs, access, mid, -, hwrite⟩ := hchain.last
    exact region_of_claimed hwrite hstatus hschema

theorem demo_sha256_injective : Function.Injective demoConfig.sha256 := by
  intro x y heq
  exact String.toByteArray_inj.mp (ByteArray.ext (Array.toList_inj.mp heq))

def demoToken : String := Uuid.simple 101

def renewSchedule : List (Action Key Call) :=
  claimSchedule ++ .tick 1 :: alone 2 (.renew 100 "worker-1" demoToken) 8

def jobLease (s : State) (id : Uuid) : Option (Option Instant) :=
  (s.committed.lookup (.job id)).map fun row : ProvisioningJobRow => row.leaseExpiresAt

def leaseStep (t : State) :
    Option (Option (Uuid × String × String) × Option (Option Instant) × Option (Option Instant)) :=
  (step (server demoConfig) t (.run 2 ⟨[], .answered⟩)).map fun u =>
    ((t.sessions 2).bind (·.call.presents), jobLease t 100, jobLease u 100)

theorem claim_fencing_renewed :
    ∃ (history : List Step) (t u : State), Run (server demoConfig) anyStep demoState history t ∧
      step (server demoConfig) t (.run 2 ⟨[], .answered⟩) = some u ∧
      u.committed.lookup (.job 100) ≠ t.committed.lookup (.job 100) ∧
      lastClaim history 100 = some ("worker-1", demoToken) := by
  have hrenewed : (recordSchedule (server demoConfig) [] demoState renewSchedule).bind
      (leaseStep ·.2) =
      some (some (100, "worker-1", demoToken), some (some 300000000), some (some 300000001)) := by
    decide
  obtain ⟨⟨history, t⟩, hschedule, hmap⟩ := bind_eq_some_iff.mp hrenewed
  obtain ⟨u, hstep, heq⟩ := map_eq_some_iff.mp hmap
  simp only [Prod.mk.injEq, bind_eq_some_iff] at heq
  obtain ⟨⟨σ, hσ, hcall⟩, hbefore, hafter⟩ := heq
  have hchange : u.committed.lookup (.job 100) ≠ t.committed.lookup (.job 100) := by
    intro hsame
    rw [jobLease, hsame, ← jobLease, hbefore] at hafter
    simp at hafter
  have hrun := run_of_recordSchedule hschedule
  obtain ⟨-, worker, token, hworker, htoken, hlast, -⟩ :=
    (claim_fencing demo_sha256_injective (demo_booted demoConfig) hrun hstep).1 2 _ σ 100 _ _ 100 rfl
      hσ hcall hchange
  have hworker' : Validation.workerId "worker-1" = .ok "worker-1" := by decide
  have htoken' : Validation.claimToken demoToken = .ok demoToken := by decide
  rw [hworker', Except.ok.injEq] at hworker
  rw [htoken', Except.ok.injEq] at htoken
  subst hworker htoken
  exact ⟨history, t, u, hrun, hstep, hchange, hlast⟩

end ControlPlane
