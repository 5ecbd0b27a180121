import ControlPlane.Proof.Handlers
import ControlPlane.ReadCommitted.Index

/-!
# Provisioning jobs in every reachable state

Every allowed write keeps a job well formed; with the partial unique index this is the invariant of
the job table, and no statement on a job is ever refused.
-/

namespace ControlPlane

open ReadCommitted Store

theorem length_le_utf8ByteSize (s : String) : s.length ≤ s.utf8ByteSize := by
  rw [← String.length_toList, ← String.utf8Len_toList]
  induction s.toList with
  | nil => simp
  | cons c cs ih =>
    have hpos := c.utf8Size_pos
    rw [List.length_cons, String.utf8Len_cons]
    omega

variable {row : ProvisioningJobRow} {now : Instant} {plan : Json}

theorem errorCheck_of_provisionFailure {rawCode code : String} {rawDetail detail : Option String}
    (hfailure : Validation.provisionFailure rawCode rawDetail = .ok (code, detail)) :
    errorCheck (failed code detail now row) = true := by
  unfold Validation.provisionFailure at hfailure
  simp only at hfailure
  split_ifs at hfailure with hcode
  have hlength := length_le_utf8ByteSize (Text.trim rawCode)
  have hpos : 1 ≤ (Text.trim rawCode).length := by
    rw [Nat.one_le_iff_ne_zero, ne_eq, String.length_eq_zero_iff]
    exact fun hempty => hcode (Or.inl hempty)
  have hshort : (Text.trim rawCode).length ≤ 96 := by
    by_contra hlong
    exact hcode (Or.inr (Or.inl (by omega)))
  split at hfailure
  · simp only [Except.ok.injEq, Prod.mk.injEq] at hfailure
    obtain ⟨rfl, rfl⟩ := hfailure
    simp [errorCheck, failed, hpos, hshort]
  · split_ifs at hfailure with hdetail
    obtain ⟨rfl, rfl⟩ := hfailure
    rw [not_or, not_lt] at hdetail
    simp [errorCheck, failed, hpos, hshort, hdetail.1]

theorem errorCheck_exhausted (now : Instant) (row : ProvisioningJobRow) :
    errorCheck (exhausted now row) = true := by
  simp only [errorCheck, exhausted, Option.all_some]
  decide

theorem claimCheck_of_not_running (hcheck : claimCheck row = true) (hstatus : row.status ≠ .running) :
    row.claimTokenHash = none ∧ row.leaseExpiresAt = none := by
  simpa [claimCheck, hstatus] using hcheck

theorem schema_of_servesPlan {region : Option String} (hserves : servesPlan region plan = true) :
    plan.textAt "schema" = some "3" ∨ plan.textAt "schema" = some "4" ∨
      plan.textAt "schema" = some "5" := by
  simp only [servesPlan, Bool.or_eq_true, Bool.and_eq_true, decide_eq_true_eq] at hserves
  tauto

variable {id : Uuid} {tenantId : Uuid} {call : Call} {readings : List Instant} {access : Access}
  {old : Option ProvisioningJobRow} {new : ProvisioningJobRow}

theorem JobOk.newJob {status : JobStatus} {version : Option String} {actor : String}
    (hstatus : status ≠ .running) :
    JobOk id (Store.newJob id tenantId status version plan actor now) where
  keyed := rfl
  claim := by simp [claimCheck, Store.newJob, hstatus]
  error := by simp [errorCheck, Store.newJob]
  planned _ := rfl
  approved _ := by simp [Store.newJob]
  attempts := by simp [Store.newJob]
  schema hrunning := absurd hrunning hstatus

theorem jobOk_of_write {cfg : Config} (hold : ∀ row, old = some row → JobOk id row)
    (hwrite : JobWrite cfg call readings id access old new) : JobOk id new := by
  cases hwrite with
  | planned => exact .newJob (by simp)
  | requested => exact .newJob (by simp)
  | approved _ _ _ _ _ _ row hstatus =>
    obtain ⟨hkeyed, hclaim, herror, hplanned, -, -, -⟩ := hold row rfl
    obtain ⟨hhash, hlease⟩ := claimCheck_of_not_running hclaim (by simp [hstatus])
    have hattempts := hplanned hstatus
    exact ⟨hkeyed, by simp [claimCheck, approvePlan, hhash, hlease], herror,
      by simp [approvePlan], by simp [approvePlan, hattempts], by simp [approvePlan, hattempts],
      by simp [approvePlan]⟩
  | cancelled _ _ now row hstatus =>
    obtain ⟨hkeyed, -, herror, -, -, hattempts, -⟩ := hold row rfl
    exact ⟨hkeyed, by simp [claimCheck, Store.cancelled], herror, by simp [Store.cancelled],
      by simp [Store.cancelled], hattempts, by simp [Store.cancelled]⟩
  | exhausted _ _ _ now row _ =>
    obtain ⟨hkeyed, -, -, -, -, hattempts, -⟩ := hold row rfl
    exact ⟨hkeyed, by simp [claimCheck, Store.exhausted], errorCheck_exhausted now row,
      by simp [Store.exhausted], by simp [Store.exhausted], hattempts, by simp [Store.exhausted]⟩
  | reapproved _ _ _ now row hlapsed =>
    obtain ⟨hkeyed, -, -, -, -, hattempts, -⟩ := hold row rfl
    have hleft : row.attemptCount ≤ 2 := by
      simp only [isReclaimable, Bool.and_eq_true, decide_eq_true_eq] at hlapsed
      omega
    exact ⟨hkeyed, by simp [claimCheck, Store.reapproved], by simp [errorCheck, Store.reapproved],
      by simp [Store.reapproved], fun _ => hleft, hattempts, by simp [Store.reapproved]⟩
  | claimed _ _ _ _ _ _ _ _ _ _ row hclaimable =>
    obtain ⟨hkeyed, -, -, -, happroved, -, -⟩ := hold row rfl
    simp only [isClaimable, Bool.and_eq_true, decide_eq_true_eq] at hclaimable
    have hleft := happroved hclaimable.1
    exact ⟨hkeyed, by simp [claimCheck, Store.claimed], by simp [errorCheck, Store.claimed],
      by simp [Store.claimed], by simp [Store.claimed], by simp only [Store.claimed]; omega,
      fun _ => schema_of_servesPlan hclaimable.2⟩
  | renewed _ _ _ _ _ _ _ lease now row hclaim =>
    obtain ⟨hkeyed, -, herror, hplanned, happroved, hattempts, hschema⟩ := hold row rfl
    exact ⟨hkeyed, by simp [claimCheck, Store.renewed, hclaim.running, hclaim.worker, hclaim.token],
      herror, hplanned, happroved, hattempts, hschema⟩
  | succeeded _ _ _ _ _ _ _ _ _ _ now row hclaim =>
    obtain ⟨hkeyed, -, -, -, -, hattempts, -⟩ := hold row rfl
    exact ⟨hkeyed, by simp [claimCheck, Store.succeeded], by simp [errorCheck, Store.succeeded],
      by simp [Store.succeeded], by simp [Store.succeeded], hattempts, by simp [Store.succeeded]⟩
  | failed _ _ _ _ _ _ _ _ _ _ _ hfailure now row hclaim =>
    obtain ⟨hkeyed, -, -, -, -, hattempts, -⟩ := hold row rfl
    exact ⟨hkeyed, by simp [claimCheck, Store.failed], errorCheck_of_provisionFailure hfailure,
      by simp [Store.failed], by simp [Store.failed], hattempts, by simp [Store.failed]⟩

variable {cfg : Config} {s t : State}

theorem protocol_metBy : (protocol cfg).MetBy (server cfg) where
  handler call := (handle_keeps call).1.meets
  keeps call rs access key old row hold hwrite := by
    cases key with
    | job id => exact jobOk_of_write hold hwrite
    | _ => trivial

theorem JobOk.of_initial (hinit : InitialJob cfg id row) : JobOk id row := by
  cases hinit with
  | registered =>
    exact ⟨rfl, by simp [claimCheck, registration, Store.newJob],
      by simp [errorCheck, registration, Store.newJob], by simp [registration, Store.newJob],
      by simp [registration, Store.newJob], by simp [registration, Store.newJob],
      by simp [registration, Store.newJob]⟩
  | createdWithTenant => exact .newJob (by simp)

theorem holds_of_booted (hboot : Booted cfg s) : (protocol cfg).Holds s := by
  refine Protocol.holds_of_atRest hboot.atRest fun key row hrow => ?_
  cases key with
  | job id => exact .of_initial (hboot.jobs id row hrow)
  | _ => trivial

theorem holds_of_reaches (hboot : Booted cfg s) (hreach : Reaches (server cfg) anyStep s t) :
    (protocol cfg).Holds t :=
  (holds_of_booted hboot).reaches protocol_metBy hreach

theorem entry_activeJob_iff {db : AList Row} {key : Key} :
    entry schema db key = some (.activeJob tenantId) ↔
      ∃ id, key = .job id ∧ ∃ row : ProvisioningJobRow, db.lookup (.job id) = some row ∧
        row.status.isActive = true ∧ row.tenantId = tenantId := by
  unfold entry
  constructor
  · intro hentry
    obtain ⟨row, hrow, hindex⟩ := Option.bind_eq_some_iff.mp hentry
    cases key with
    | job id =>
      simp only [schema, rowIndex, jobIndex] at hindex
      split_ifs at hindex with hactive
      exact ⟨id, rfl, row, hrow, hactive, by simpa using hindex⟩
    | tenant id => simp [schema, rowIndex, tenantIndex] at hindex
    | _ => simp [schema, rowIndex] at hindex
  · rintro ⟨id, rfl, row, hrow, hactive, rfl⟩
    simp [hrow, schema, rowIndex, jobIndex, hactive]

theorem indexGuarded_of_reaches (hboot : Booted cfg s)
    (hreach : Reaches (server cfg) anyStep s t) (tenantId : Uuid) :
    IndexGuarded schema (.activeJob tenantId) t := by
  have hinit : IndexGuarded schema (.activeJob tenantId) s := by
    refine indexGuarded_of_atRest hboot.atRest fun key key' h h' => ?_
    obtain ⟨id, rfl, row, hrow, hactive, htenant⟩ := entry_activeJob_iff.mp h
    obtain ⟨id', rfl, row', hrow', hactive', htenant'⟩ := entry_activeJob_iff.mp h'
    rw [hboot.oneActive id id' row row' hrow hrow' hactive hactive' (htenant.trans htenant'.symm)]
  exact (hreach.invariant
    (I := fun u => (protocol cfg).Holds u ∧ IndexGuarded schema (.activeJob tenantId) u)
    (fun _ _ _ hu _ hstep => ⟨hu.1.step protocol_metBy hstep, indexGuarded_step hu.1 hu.2 hstep⟩)
    ⟨holds_of_booted hboot, hinit⟩).2

theorem atMostOne_active (hboot : Booted cfg s) (hreach : Reaches (server cfg) anyStep s t)
    {id' : Uuid} {row' : ProvisioningJobRow} (hrow : t.committed.lookup (.job id) = some row)
    (hrow' : t.committed.lookup (.job id') = some row') (hactive : row.status.isActive = true)
    (hactive' : row'.status.isActive = true) (htenant : row.tenantId = row'.tenantId) :
    id = id' := by
  have hunique := (indexGuarded_of_reaches hboot hreach row.tenantId).unique (.job id) (.job id')
    (Or.inl (entry_activeJob_iff.mpr ⟨id, rfl, row, hrow, hactive, rfl⟩))
    (Or.inl (entry_activeJob_iff.mpr ⟨id', rfl, row', hrow', hactive', htenant.symm⟩))
  simpa using hunique

theorem jobCheck_of_jobOk (hok : JobOk id row) : jobCheck row = true := by
  have hattempts := hok.attempts
  simp [jobCheck, hok.claim, hok.error, show row.attemptCount ≤ 10 by omega]

theorem jobIndex_of_update (haccess : access ≠ .insert)
    (hwrite : JobWrite cfg call readings id access old new) {i : Index}
    (hindex : jobIndex new = some i) : old.bind jobIndex = some i := by
  cases hwrite with
  | planned => exact absurd rfl haccess
  | requested => exact absurd rfl haccess
  | approved _ _ _ _ _ _ row hstatus =>
    simpa [jobIndex, approvePlan, hstatus, JobStatus.isActive] using hindex
  | cancelled _ _ now row => simp [jobIndex, Store.cancelled, JobStatus.isActive] at hindex
  | exhausted _ _ _ now row => simp [jobIndex, Store.exhausted, JobStatus.isActive] at hindex
  | reapproved _ _ _ now row hlapsed =>
    have hrunning : row.status = .running := by
      simp only [isReclaimable, leaseLapsed, Bool.and_eq_true, decide_eq_true_eq] at hlapsed
      exact hlapsed.1.1
    simpa [jobIndex, Store.reapproved, hrunning, JobStatus.isActive] using hindex
  | claimed _ _ _ _ _ _ _ _ _ _ row hclaimable =>
    simp only [isClaimable, Bool.and_eq_true, decide_eq_true_eq] at hclaimable
    simpa [jobIndex, Store.claimed, hclaimable.1, JobStatus.isActive] using hindex
  | renewed _ _ _ _ _ _ _ lease now row hclaim =>
    simpa [jobIndex, Store.renewed, hclaim.running, JobStatus.isActive] using hindex
  | succeeded => simp [jobIndex, Store.succeeded, JobStatus.isActive] at hindex
  | failed => simp [jobIndex, Store.failed, JobStatus.isActive] at hindex

def Key.isJob : Key → Prop
  | .job _ => True
  | _ => False

theorem unrefused_of_reaches (hboot : Booted cfg s) (hreach : Reaches (server cfg) anyStep s t) :
    Unrefused Key.isJob t := by
  refine (hreach.invariant (I := fun u => (protocol cfg).Holds u ∧ Unrefused Key.isJob u)
    (fun _ _ _ hu _ hstep => ⟨hu.1.step protocol_metBy hstep, ?_⟩)
    ⟨holds_of_booted hboot, unrefused_of_atRest hboot.atRest⟩).2
  refine unrefused_step protocol_metBy hu.1 (fun key row hkey hinv => ?_) ?_ hu.2 hstep
  · cases key with
    | job id => exact jobCheck_of_jobOk hinv
    | _ => exact hkey.elim
  · intro call rs access key old row hkey haccess hwrite i hindex
    cases key with
    | job id => exact jobIndex_of_update haccess hwrite hindex
    | _ => exact hkey.elim

def demoConfig : Config where
  sha256 s := s.toByteArray.data.toList
  runtimeStaleAfterSeconds := 300
  provisionerConfigured := true
  provisionerLeaseSeconds := 300
  provisionerDefaultImageTag := some "sha-0123456789012345678901234567890123456789"
  provisionerApiImage := "api"
  provisionerWorkerImage := "worker"
  sharedPgCluster := "cluster"
  sharedPgNetwork := "net"
  sharedPgMaxTenants := 1
  hashtext s := s.length
  billingWebhookSecret := some "secret"

def demoTenant : TenantRow where
  id := 1
  slug := "acme"
  displayName := "Acme"
  status := .active
  workspaceId := none
  crowdrelayBaseUrl := some "https://acme"
  signalBaseUrl := none
  defaultCountryCode := "PL"
  regionalProfile := some (RegionalProfile.toJson
    ⟨"PL", "EU", "pl", "Europe/Warsaw", "PLN", "d", "n", "eu"⟩)
  brandingPalette := none
  synesthesiaEnabled := false
  areaEnabled := false
  canSuspend := true
  canProvision := true
  placement := .dedicated
  placementCluster := none
  placementDatabase := none
  teamMembers := .arr []
  updatedAt := 0

def demoJob : ProvisioningJobRow := registration 2 1 "http://acme-api:8080" 0 0

def demoState : State where
  committed := (AList.singleton (.tenant 1) demoTenant : AList Row).insert (.job 2) demoJob
  upstream _ := ⟨⟨true, false, 1, 1, 1, 1, false, 1⟩, ⟨"grounded", 1⟩, false⟩
  clock := 0
  nextId := 100
  locks _ := none
  reserved _ := none
  sessions _ := none

theorem demo_jobs (hrow : demoState.committed.lookup (.job id) = some row) :
    id = 2 ∧ row = demoJob := by
  by_cases hid : id = 2
  · subst hid
    simp only [demoState, AList.lookup_insert, Option.some.injEq] at hrow
    exact ⟨rfl, hrow.symm⟩
  · have hne : Key.job id ≠ .job 2 := by simpa using hid
    rw [demoState, AList.lookup_insert_ne hne] at hrow
    exact absurd hrow (by simp [AList.lookup, AList.singleton, List.dlookup])

theorem demo_booted (cfg : Config) : Booted cfg demoState where
  atRest := ⟨fun _ => rfl, fun _ => rfl, fun _ => rfl⟩
  jobs id row hrow := by
    obtain ⟨rfl, rfl⟩ := demo_jobs hrow
    exact .registered 1 _ 0 0
  oneActive id id' row row' hrow hrow' _ _ _ := by rw [(demo_jobs hrow).1, (demo_jobs hrow').1]

def claimSchedule : List (Action Key Call) :=
  alone 0 (.provision "acme" none "operator") 7 ++ alone 1 (.claim "worker-1" (some "eu")) 14

def jobStatus (s : State) (id : Uuid) : Option JobStatus :=
  (s.committed.lookup (.job id)).map fun row : ProvisioningJobRow => row.status

/-- **The invariant of the job table.** In every reachable state a tenant has at most one active
job, a job is running exactly when its claim is complete, it is claimed at most three times, only
plans a provisioner understands run, and no statement on a job was refused by a constraint. -/
theorem provisioningJob_invariant (hboot : Booted cfg s)
    (hreach : Reaches (server cfg) anyStep s t) :
    (∀ id id' (row row' : ProvisioningJobRow), t.committed.lookup (.job id) = some row →
      t.committed.lookup (.job id') = some row' → row.status.isActive = true →
      row'.status.isActive = true → row.tenantId = row'.tenantId → id = id') ∧
    (∀ id (row : ProvisioningJobRow), t.committed.lookup (.job id) = some row →
      (row.status = .running ↔ row.claimedBy.isSome = true ∧ row.claimTokenHash.isSome = true ∧
        row.leaseExpiresAt.isSome = true) ∧
      row.attemptCount ≤ 3 ∧
      (row.status = .running → row.plan.textAt "schema" = some "3" ∨
        row.plan.textAt "schema" = some "4" ∨ row.plan.textAt "schema" = some "5")) ∧
    ∀ sid σ, t.sessions sid = some σ → ∀ id, Key.job id ∉ σ.txn.refused := by
  refine ⟨fun _ _ _ _ => atMostOne_active hboot hreach, fun id row hrow => ?_,
    fun sid σ hσ id hmem => unrefused_of_reaches hboot hreach sid σ hσ _ hmem trivial⟩
  have hok : JobOk id row := (holds_of_reaches hboot hreach).inv (.job id) row hrow
  refine ⟨⟨fun hrunning => ?_, fun hclaim => ?_⟩, hok.attempts, hok.schema⟩
  · simpa [claimCheck, hrunning, and_assoc] using hok.claim
  · by_contra hstatus
    obtain ⟨hhash, -⟩ := claimCheck_of_not_running hok.claim hstatus
    simp [hhash] at hclaim

theorem provisioningJob_invariant_claimed :
    ∃ t : State, jobStatus t 100 = some .running ∧
      ∀ id (row : ProvisioningJobRow), t.committed.lookup (.job id) = some row →
        row.attemptCount ≤ 3 := by
  have hstatus : (runSchedule (server demoConfig) demoState claimSchedule).map (jobStatus · 100) =
      some (some .running) := by decide
  obtain ⟨t, hschedule, hrunning⟩ := Option.map_eq_some_iff.mp hstatus
  obtain ⟨-, hjobs, -⟩ :=
    provisioningJob_invariant (demo_booted demoConfig) (reaches_of_runSchedule hschedule)
  exact ⟨t, hrunning, fun id row hrow => (hjobs id row hrow).2.1⟩

end ControlPlane
