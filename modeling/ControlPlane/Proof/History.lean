import ControlPlane.Proof.Delivery
import ControlPlane.Proof.Guarantee

/-!
# What later versions of a row keep

Jobs, guarantees and notifications are rewritten by calls that know nothing of each other. For each
table, what every version takes over from all the earlier ones.
-/

namespace ControlPlane

open ReadCommitted Store Dispatch Option

variable {cfg : Config} {s t u : State} {id tenantId : Uuid}

section Jobs

variable {old mid new : ProvisioningJobRow}

structure ProvisioningJobRow.Continues (old new : ProvisioningJobRow) : Prop where
  request : new.id = old.id ∧ new.tenantId = old.tenantId ∧ new.createdBy = old.createdBy ∧
    new.createdAt = old.createdAt
  approved : old.status ≠ .planned →
    new.status ≠ .planned ∧ new.plan = old.plan ∧ new.desiredVersion = old.desiredVersion
  started : ∀ start, old.startedAt = some start → new.startedAt = some start
  attempts : old.attemptCount ≤ new.attemptCount
  /-- A running job is in a later attempt or under the same claim. -/
  claim : new.status = .running → old.attemptCount < new.attemptCount ∨
    old.status = .running ∧ new.attemptCount = old.attemptCount ∧
      new.claimedBy = old.claimedBy ∧ new.claimTokenHash = old.claimTokenHash

namespace ProvisioningJobRow.Continues

theorem refl (row : ProvisioningJobRow) : row.Continues row :=
  ⟨⟨rfl, rfl, rfl, rfl⟩, fun h => ⟨h, rfl, rfl⟩, fun _ h => h, le_rfl,
    fun h => .inr ⟨h, rfl, rfl, rfl⟩⟩

theorem trans (hfirst : old.Continues mid) (hlast : mid.Continues new) : old.Continues new where
  request := by simp only [hlast.request, hfirst.request, and_self]
  approved hold := by
    obtain ⟨hmid, hplan, hversion⟩ := hfirst.approved hold
    rw [← hplan, ← hversion]
    exact hlast.approved hmid
  started start hold := hlast.started start (hfirst.started start hold)
  attempts := hfirst.attempts.trans hlast.attempts
  claim hnew := by
    obtain hlater | ⟨hmid, hcount, hworker, hhash⟩ := hlast.claim hnew
    · exact .inl (hfirst.attempts.trans_lt hlater)
    · rw [hcount, hworker, hhash]
      exact hfirst.claim hmid

theorem of_write {call : Call} {readings : List Instant} {access : Access}
    (hwrite : JobWrite cfg call readings id access (some old) new) : old.Continues new := by
  cases hwrite with
  | approved _ _ _ _ _ _ _ hplanned =>
    exact ⟨⟨rfl, rfl, rfl, rfl⟩, fun h => absurd hplanned h, fun _ h => h, le_rfl,
      by simp [approvePlan]⟩
  | claimed =>
    exact ⟨⟨rfl, rfl, rfl, rfl⟩, fun _ => ⟨by simp [claimed], rfl, rfl⟩,
      fun start h => by simp [claimed, h], Nat.le_succ _, fun _ => .inl (Nat.lt_succ_self _)⟩
  | renewed =>
    exact ⟨⟨rfl, rfl, rfl, rfl⟩, (refl old).approved, fun _ h => h, le_rfl, (refl old).claim⟩
  | _ =>
    refine ⟨⟨rfl, rfl, rfl, rfl⟩, fun _ => ⟨?_, rfl, rfl⟩, fun _ h => h, le_rfl, ?_⟩
    all_goals simp [Store.cancelled, exhausted, reapproved, succeeded, failed]

end ProvisioningJobRow.Continues

/-- **The history of a job.** However the calls interleave, a later version of a job is for the same
request, carries out the plan and version that were approved, started when the job first started,
and if it runs it is in a later attempt or under the very claim of the earlier version. -/
theorem job_continues (hboot : Booted cfg s) (hreach : Reaches (server cfg) anyStep s t)
    (hlater : Reaches (server cfg) anyStep t u) (hold : t.committed.lookup (.job id) = some old)
    (hnew : u.committed.lookup (.job id) = some new) : old.Continues new :=
  Protocol.related_of_writes (.job id) .refl .trans protocol_metBy (fun _ _ _ _ _ => .of_write)
    (holds_of_reaches hboot hreach) hlater hold hnew

theorem job_continues_claimed : ∃ (t u : State) (old new : ProvisioningJobRow),
    t.committed.lookup (.job 100) = some old ∧ u.committed.lookup (.job 100) = some new ∧
      old.status = .approved ∧ new.status = .running ∧ old.Continues new := by
  have hrun : (runSchedule (server demoConfig) demoState (claimSchedule.take 8)).bind (fun t =>
      (runSchedule (server demoConfig) t (claimSchedule.drop 8)).map fun u =>
        (jobStatus t 100, jobStatus u 100)) = some (some .approved, some .running) := by decide
  obtain ⟨t, hschedule, hlater⟩ := bind_eq_some_iff.mp hrun
  obtain ⟨u, hu, hstatus⟩ := map_eq_some_iff.mp hlater
  obtain ⟨hbefore, hafter⟩ := Prod.mk.inj hstatus
  obtain ⟨old, hold, happroved⟩ := map_eq_some_iff.mp hbefore
  obtain ⟨new, hnew, hrunning⟩ := map_eq_some_iff.mp hafter
  exact ⟨t, u, old, new, hold, hnew, happroved, hrunning, job_continues (demo_booted demoConfig)
    (reaches_of_runSchedule hschedule) (reaches_of_runSchedule hu) hold hnew⟩

end Jobs

section Guarantees

variable {old mid new : TenantGuaranteeRow}

def TenantGuaranteeRow.Continues (old new : TenantGuaranteeRow) : Prop :=
  new = old ∨ ∃ startedAt fans, new = anchored startedAt fans old

theorem TenantGuaranteeRow.Continues.trans (hfirst : old.Continues mid)
    (hlast : mid.Continues new) : old.Continues new := by
  obtain rfl | ⟨startedAt, fans, rfl⟩ := hlast
  · exact hfirst
  obtain rfl | ⟨_, fans', rfl⟩ := hfirst
  · exact .inr ⟨startedAt, fans, rfl⟩
  -- the later start replaces the earlier one, which leaves its fan level if no other is known
  · exact .inr ⟨startedAt, some (fans.getD (fans'.getD old.baselineValue)), rfl⟩

/-- **The history of a guarantee.** However many starts of subscriptions are delivered in between, a
later version of a guarantee is the earlier one, or that one anchored once. -/
theorem guarantee_continues (hboot : Booted cfg s) (hreach : Reaches (server cfg) anyStep s t)
    (hlater : Reaches (server cfg) anyStep t u)
    (hold : t.committed.lookup (.guarantee tenantId) = some old)
    (hnew : u.committed.lookup (.guarantee tenantId) = some new) : old.Continues new := by
  refine Protocol.related_of_writes (.guarantee tenantId) (R := TenantGuaranteeRow.Continues)
    (fun _ => .inl rfl) .trans protocol_metBy ?_ (holds_of_reaches hboot hreach) hlater hold hnew
  rintro call rs access old new ⟨⟩
  exact .inr ⟨_, _, rfl⟩

theorem guarantee_continues_anchored : ∃ (u : State) (old new : TenantGuaranteeRow),
    u.committed.lookup (.guarantee 1) = some new ∧ old.anchoredStartedAt = none ∧
      new.anchoredStartedAt = some 5 ∧ old.Continues new := by
  let row (t : State) : Option TenantGuaranteeRow := t.committed.lookup (.guarantee 1)
  have hrun : (runSchedule (server demoConfig) demoState (alone 0 (demoReport 10 0) 9)).bind
      (fun t => (runSchedule (server demoConfig) t (alone 1 (demoStart "sub_1" 5) 13)).map fun u =>
        (row t, row u)) = some (some ⟨1, guaranteeMetric, 10, 0, days 90, none⟩,
          some ⟨1, guaranteeMetric, 10, 5, 5 + days 90, some 5⟩) := by decide
  obtain ⟨t, hschedule, hlater⟩ := bind_eq_some_iff.mp hrun
  obtain ⟨u, hu, hrows⟩ := map_eq_some_iff.mp hlater
  obtain ⟨hold, hnew⟩ := Prod.mk.inj hrows
  exact ⟨u, _, _, hnew, rfl, rfl, guarantee_continues (demo_booted demoConfig)
    (reaches_of_runSchedule hschedule) (reaches_of_runSchedule hu) hold hnew⟩

end Guarantees

section Notifications

variable {old mid new : OutboxRow}

structure OutboxRow.Continues (old new : OutboxRow) : Prop where
  message : new.id = old.id ∧ new.channelId = old.channelId ∧ new.event = old.event ∧
    new.payload = old.payload
  attempts : old.attempts ≤ new.attempts
  closed : old.status ≠ .pending → new.status ≠ .pending ∧ new.attempts = old.attempts

namespace OutboxRow.Continues

theorem refl (row : OutboxRow) : row.Continues row :=
  ⟨⟨rfl, rfl, rfl, rfl⟩, le_rfl, fun h => ⟨h, rfl⟩⟩

theorem trans (hfirst : old.Continues mid) (hlast : mid.Continues new) : old.Continues new where
  message := by simp only [hlast.message, hfirst.message, and_self]
  attempts := hfirst.attempts.trans hlast.attempts
  closed hold := by
    obtain ⟨hmid, hcount⟩ := hfirst.closed hold
    rw [← hcount]
    exact hlast.closed hmid

theorem of_settled (hsettled : Settled old new) : old.Continues new := by
  refine ⟨?_, hsettled.attempts.ge, fun hold => ⟨fun hnew => hold (hsettled.pending hnew).1,
    hsettled.attempts⟩⟩
  cases hsettled <;> exact ⟨rfl, rfl, rfl, rfl⟩

end OutboxRow.Continues

/-- **The history of a notification.** The message and its channel never change, attempts are only
added, and once it is sent or dead it is never handed to a dispatcher again. -/
theorem notification_continues (hboot : Booted cfg s) (hreach : Reaches (server cfg) anyStep s t)
    (hlater : Reaches (server cfg) anyStep t u) (hold : t.committed.lookup (.outbox id) = some old)
    (hnew : u.committed.lookup (.outbox id) = some new) : old.Continues new := by
  refine Protocol.related_of_steps (.outbox id) (R := OutboxRow.Continues) .refl .trans
    (fun v w a row hv hstep hrow => ?_) hlater hold hnew
  obtain ⟨g, g', hstep⟩ := outboxStep_of_reaches hboot (hreach.trans hv) hstep id
  cases hstep with
  | unchanged _ hsame => exact ⟨row, hsame.trans hrow, .refl row⟩
  | enqueued _ _ _ _ _ hnone => simp [hnone] at hrow
  | claimed _ _ _ _ _ _ _ _ found _ hfound hdue hafter =>
    obtain rfl := some.inj (hfound.symm.trans hrow)
    exact ⟨_, hafter, ⟨rfl, rfl, rfl, rfl⟩, Nat.le_succ _,
      fun hclosed => absurd (status_of_isDue hdue).1 hclosed⟩
  | settled _ _ _ _ _ _ _ found settled _ hfound hsettled hafter =>
    obtain rfl := some.inj (hfound.symm.trans hrow)
    exact ⟨settled, hafter, .of_settled hsettled⟩

theorem notification_continues_sent : ∃ (u : State) (new : OutboxRow),
    u.committed.lookup (.outbox 11) = some new ∧ new.status = .sent ∧
      (demoRow 4 11).Continues new := by
  have hrun : (runSchedule (server demoConfig) (demoQueue 4 [11]) deliveredAgain).map (closing 11) =
      some (some ⟨.sent, none, 120000000⟩) := by decide
  obtain ⟨u, hu, hstatus⟩ := map_eq_some_iff.mp hrun
  obtain ⟨new, hnew, hsent, -⟩ := closing_eq_some hstatus
  exact ⟨u, new, hnew, hsent, notification_continues (demoQueue_booted demoConfig) (.refl _)
    (reaches_of_runSchedule hu) rfl hnew⟩

end Notifications

end ControlPlane
