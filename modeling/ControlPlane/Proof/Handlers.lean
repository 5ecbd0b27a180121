import ControlPlane.Proof.Writes
import ControlPlane.ReadCommitted.SerialRules

/-!
# The handlers keep to their contracts

One rule for each function of the store, and from them that every route writes only what
`callWrites` allows.
-/

namespace ControlPlane

open ReadCommitted ReadCommitted.Handler Store Option Local AList

section Rules

variable {cfg : Config} {C : Contract Row} {l : Local Row} {E : ApiError → Local Row → Prop}
  {id : Uuid} {row : ProvisioningJobRow}

theorem mem_jobsOf {db : AList Row} {job : ProvisioningJobRow} (hmem : job ∈ jobsOf db) :
    ∃ id, db.lookup (.job id) = some job := by
  obtain ⟨key, -, hkey⟩ := List.mem_filterMap.mp hmem
  cases key <;> simp at hkey
  exact ⟨_, hkey⟩

theorem wp_tenantBySlug {slug : String} {Q : TenantSummary → Local Row → Prop}
    (hresume : C.resume l.saved)
    (hfound : ∀ db now tenant, l.Sees C db → tenantRow db slug = some tenant →
      Q (summary cfg db now tenant) ((l.seeing db).reading now))
    (hmissing : ∀ db, l.Sees C db → E .notFound (l.seeing db)) :
    wp C (tenantBySlug cfg slug) l Q E := by
  simp only [tenantBySlug, wp_bind, wp_snapshot, wp_okOr, wp_utcNow, wp_pure]
  exact ⟨hresume, fun db hsees =>
    ⟨fun tenant htenant => ⟨hresume, fun now => hfound db now tenant hsees htenant⟩,
      fun _ => hmissing db hsees⟩⟩

def Keyed (l : Local Row) : Prop :=
  ∀ id (row : ProvisioningJobRow), l.held (.job id) = some row → row.id = id

theorem Keyed.of_mayFind (hkeyed : Keyed l) (hrely : ∀ id row, C.rely (.job id) row → row.id = id)
    (hfind : l.MayFind C (.job id) row) : row.id = id := by
  cases hheld : l.held (.job id) with
  | none => exact hrely id row (hfind.2 hheld)
  | some known =>
    obtain rfl := hfind.eq_of_held hheld
    exact hkeyed id row hheld

theorem Keyed.hold (hkeyed : Keyed l) (hid : row.id = id) : Keyed (l.hold (.job id) row) := by
  intro other r hr
  by_cases heq : other = id
  · subst heq
    rw [hold_held_self, some.injEq] at hr
    exact hr ▸ hid
  · rw [hold_held_of_ne _ _ (by simpa using heq)] at hr
    exact hkeyed other r hr

structure Searching (l l' : Local Row) : Prop where
  readings : l'.readings = l.readings
  writes : l'.writes = l.writes
  saved : l'.saved = l.saved
  keyed : Keyed l'

theorem wp_activeProvisioningJob {tenantId : Uuid}
    {Q : Option ProvisioningJobRow → Local Row → Prop}
    (hresume : C.resume l.saved) (hrely : ∀ id row, C.rely (.job id) row → row.id = id)
    (hfree : ∀ key, l.held key = none) (hnone : ∀ l', Searching l l' → Q none l')
    (hsome : ∀ l' (row : ProvisioningJobRow), Searching l l' → l'.held (.job row.id) = some row →
      isActiveOf tenantId row = true → Q (some row) l') :
    wp C (activeProvisioningJob tenantId) l Q E := by
  simp only [activeProvisioningJob, wp_bind, wp_snapshot, wp_pure]
  refine ⟨hresume, fun db hsees => ?_⟩
  refine wp_firstLocked (I := Searching l) _ (fun l' hl' => hl'.saved ▸ hresume) ?_ hnone ?_
    ⟨rfl, rfl, rfl, fun id row hrow => by simp [hfree] at hrow⟩
  · intro l' key hmem row hl' hfind
    obtain ⟨job, -, rfl⟩ := List.mem_map.mp hmem
    exact ⟨hl'.readings, hl'.writes, hl'.saved, hl'.keyed.hold (hl'.keyed.of_mayFind hrely hfind)⟩
  · intro l' key hmem row hl' hheld hactive
    obtain ⟨job, -, rfl⟩ := List.mem_map.mp hmem
    have hid : row.id = job.id := hl'.keyed job.id row hheld
    refine hsome l' row hl' ?_ hactive
    rw [hid]
    exact hheld

end Rules

section Notifications

variable {C : Contract Row} {E : ApiError → Local Row → Prop} {Q : Unit → Local Row → Prop}
  {event : NotifierEvent} {payload : Json} (hresume : ∀ saved, C.resume saved)
  (hwrite : ∀ readings id now channel, C.write readings .insert (.outbox id) none
    (enqueued id event payload now channel))
  (hQ : ∀ l, Q () l) (hE : ∀ l e, E (.database (.constraint e)) l)
include hresume hwrite hQ hE

theorem wp_enqueueEach {now : Instant} (channels : List NotifierChannelRow) :
    ∀ {l}, wp C (enqueueEach event payload now channels) l Q E := by
  induction channels with
  | nil => exact wp_pure.mpr (hQ _)
  | cons channel rest ih =>
    intro l
    simp only [enqueueEach, wp_bind, wp_fresh, wp_insert, wp_ensure]
    refine ⟨hresume _, fun id => ⟨hresume _, fun db _ => ⟨hwrite .., fun _ => ?_⟩, ?_, hE l _⟩⟩
    · exact ⟨fun _ => ih, fun h => absurd trivial h⟩
    · exact ⟨fun h => absurd h (by simp), fun _ => hE l _⟩

theorem wp_enqueueEventTx {tenantId : Uuid} {l : Local Row} :
    wp C (enqueueEventTx tenantId event payload) l Q E := by
  simp only [enqueueEventTx, wp_bind, wp_sqlNow, wp_snapshot]
  exact ⟨hresume _, fun _ => ⟨hresume _, fun db _ => wp_enqueueEach hresume hwrite hQ hE _⟩⟩

end Notifications

section Plain

variable {cfg : Config} {call : Call} {l : Local Row}

def Call.plain : Call → Prop
  | .claim .. | .complete .. => False
  | _ => True

theorem resume_of_plain (cfg : Config) (hplain : call.plain) (saved : AList Row) :
    ((protocol cfg).contract call).resume saved := by
  cases call <;> trivial

theorem commit_of_plain (hplain : call.plain) (writes : AList Row) :
    ((protocol cfg).contract call).commit writes := by
  cases call <;> trivial

theorem plain_of_plans (hcall : call.plans) : call.plain := by
  cases call <;> trivial

/-- A handler of the call that starts and ends between transactions, and stays within the call's
writes. -/
structure KeepsTo (cfg : Config) (call : Call) {α : Type} (h : Handler α) : Prop where
  keeps : ∀ l : Local Row, l.Idle → wp ((protocol cfg).contract call) h l (fun _ l' => l'.Idle)
    fun _ l' => l'.Idle
  closed : Closed schema h

section Combinators

variable {α β : Type} {h : Handler α}

theorem KeepsTo.bind {f : α → Handler β} (hh : KeepsTo cfg call h)
    (hf : ∀ a, KeepsTo cfg call (f a)) : KeepsTo cfg call (h >>= f) := by
  refine ⟨fun l hidle => ?_, .bind hh.closed fun a => (hf a).closed⟩
  rw [wp_bind]
  exact wp_mono (fun a l' hl' => (hf a).keeps l' hl') (fun _ _ hl' => hl') (hh.keeps l hidle)

theorem KeepsTo.pure (a : α) : KeepsTo cfg call (Pure.pure a) :=
  ⟨fun _ hidle => wp_pure.mpr hidle, .pure a⟩

theorem KeepsTo.throw (e : ApiError) : KeepsTo cfg call (throw e : Handler α) :=
  ⟨fun _ hidle => wp_throw.mpr hidle, .throw e⟩

theorem KeepsTo.require (value : Except ApiError α) :
    KeepsTo cfg call (Handler.require value) := by
  refine ⟨fun l hidle => ?_, .require value⟩
  rw [wp_require]
  exact ⟨fun _ _ => hidle, fun _ _ => hidle⟩

theorem KeepsTo.okOr (value : Option α) (e : ApiError) : KeepsTo cfg call (Handler.okOr value e) := by
  refine ⟨fun l hidle => ?_, .okOr value e⟩
  rw [wp_okOr]
  exact ⟨fun _ _ => hidle, fun _ => hidle⟩

theorem KeepsTo.ensure (condition : Prop) [Decidable condition] (e : ApiError) :
    KeepsTo cfg call (Handler.ensure condition e) := by
  refine ⟨fun l hidle => ?_, .ensure e⟩
  rw [wp_ensure]
  exact ⟨fun _ => hidle, fun _ => hidle⟩

theorem KeepsTo.whenever {body : Handler Unit} (condition : Prop) [Decidable condition]
    (hbody : KeepsTo cfg call body) : KeepsTo cfg call (whenever condition body) := by
  refine ⟨fun l hidle => ?_, .whenever hbody.closed⟩
  rw [wp_whenever]
  exact ⟨fun _ => hbody.keeps l hidle, fun _ => hidle⟩

theorem KeepsTo.mapErr {f : ApiError → ApiError} (hh : KeepsTo cfg call h) :
    KeepsTo cfg call (Handler.mapErr f h) := by
  refine ⟨fun l hidle => ?_, .mapErr hh.closed⟩
  rw [wp_mapErr]
  exact hh.keeps l hidle

theorem KeepsTo.attempt (hh : KeepsTo cfg call h) : KeepsTo cfg call (Handler.attempt h) := by
  refine ⟨fun l hidle => ?_, .attempt hh.closed⟩
  rw [wp_attempt]
  exact hh.keeps l hidle

end Combinators

theorem KeepsTo.utcNow (hplain : call.plain) : KeepsTo cfg call Handler.utcNow := by
  refine ⟨fun l hidle => ?_, .utcNow⟩
  rw [wp_utcNow]
  exact ⟨resume_of_plain cfg hplain _, fun _ => hidle.reading⟩

theorem KeepsTo.snapshot (hplain : call.plain) : KeepsTo cfg call Handler.snapshot := by
  refine ⟨fun l hidle => ?_, .snapshot⟩
  rw [wp_snapshot]
  exact ⟨resume_of_plain cfg hplain _, fun _ _ => hidle.seeing⟩

theorem KeepsTo.fresh (hplain : call.plain) : KeepsTo cfg call Handler.fresh := by
  refine ⟨fun l hidle => ?_, .fresh⟩
  rw [wp_fresh]
  exact ⟨resume_of_plain cfg hplain _, fun _ => hidle⟩

theorem KeepsTo.request (hplain : call.plain) (req : ManagementRequest) :
    KeepsTo cfg call (Handler.request req) := by
  refine ⟨fun l hidle => ?_, .request req⟩
  rw [wp_request]
  exact ⟨resume_of_plain cfg hplain _, fun _ => hidle⟩

theorem KeepsTo.inTransaction {α : Type} {h : Handler α} (hplain : call.plain)
    (hbody : ∀ l : Local Row, l.Idle →
      wp ((protocol cfg).contract call) h l (fun _ _ => True) fun _ _ => True) :
    KeepsTo cfg call (Handler.inTransaction h) := by
  refine ⟨fun l hidle => ?_, .inTransaction⟩
  rw [wp_inTransaction]
  refine ⟨resume_of_plain cfg hplain _, wp_mono (fun _ l' _ => ?_) (fun _ l' _ => ?_)
    (hbody l hidle)⟩
  · exact ⟨resume_of_plain cfg hplain _, commit_of_plain hplain _, l'.idle_ended _⟩
  · exact ⟨resume_of_plain cfg hplain _, l'.idle_ended _⟩

theorem KeepsTo.tenantBySlug (hplain : call.plain) (slug : String) :
    KeepsTo cfg call (tenantBySlug cfg slug) :=
  ⟨fun _ hidle => wp_tenantBySlug (resume_of_plain cfg hplain _)
    (fun _ _ _ _ _ => hidle.seeing.reading) fun _ _ => hidle.seeing,
    .bind .snapshot fun _ => .bind (.okOr _ _) fun _ => .bind .utcNow fun _ => .pure _⟩

theorem KeepsTo.planProvisioning (hcall : call.plans) (slug actor : String)
    (version : Option String) (keys : Option Json) :
    KeepsTo cfg call (planProvisioning cfg slug version keys actor) := by
  have hplain := plain_of_plans hcall
  have hresume := resume_of_plain cfg hplain
  refine .bind (.tenantBySlug hplain slug) fun tenant => .bind (.fresh hplain) fun id =>
    .inTransaction hplain fun l hidle => ?_
  simp only [wp_bind, wp_sqlNow, wp_insert]
  refine ⟨hresume _, fun now => ⟨hresume _, fun db _ => ⟨?_, fun _ => by simp⟩, ?_, trivial⟩⟩
  · exact .planned hcall _ version keys actor now
  · rw [if_neg Bool.false_ne_true, wp_bind]
    refine wp_activeProvisioningJob (hresume _) (fun _ _ => JobOk.keyed) hidle.held (fun l' _ => ?_)
      fun l' row _ _ _ => ?_
    · simp
    · simp

theorem KeepsTo.requestDeployment (hcall : call.plans)
    (slug version apiImage workerImage actor : String) :
    KeepsTo cfg call (requestDeployment cfg slug version apiImage workerImage actor) := by
  have hplain := plain_of_plans hcall
  have hresume := resume_of_plain cfg hplain
  refine .bind (.tenantBySlug hplain slug) fun tenant => ?_
  refine .bind (.ensure _ _) fun _ => .bind (.ensure _ _) fun _ =>
    .bind (.ensure _ _) fun _ => .bind (.fresh hplain) fun id => ?_
  refine ⟨fun l hidle => ?_, .bind (.require _) fun _ => .inTransaction⟩
  rw [wp_bind, wp_require]
  refine ⟨fun plan hplan => (KeepsTo.inTransaction hplain fun l hidle => ?_).keeps l hidle,
    fun _ _ => hidle⟩
  simp only [wp_bind, wp_sqlNow, wp_insert]
  refine ⟨hresume _, fun now => ⟨hresume _, fun db _ => ⟨?_, fun _ => by simp⟩, ?_, trivial⟩⟩
  · exact .requested hcall _ _ plan hplan actor now
  · rw [if_neg Bool.false_ne_true, wp_bind]
    refine wp_activeProvisioningJob (hresume _) (fun _ _ => JobOk.keyed) hidle.held (fun l' _ => ?_)
      fun l' row _ hheld _ => ?_
    · simp
    · simp only [wp_bind, wp_okOr, wp_ensure]
      refine ⟨fun existing hexisting => ⟨fun _ => ?_, fun _ => trivial⟩, fun _ => trivial⟩
      obtain rfl := some.inj hexisting
      split_ifs with hplanned
      · rw [wp_bind]
        refine wp_updateRow_held _ (hresume _) hheld (by simp [hplanned]) fun db' _ => ?_
        refine ⟨.approved hcall _ _ plan hplan now row hplanned, ?_, fun _ => trivial⟩
        simp
      · simp

theorem keepsTo_cancelProvisioning (slug slug' : String) (hcall : call = .cancel slug') :
    KeepsTo cfg call (cancelProvisioning cfg slug) := by
  have hplain : call.plain := by subst hcall; trivial
  have hresume := resume_of_plain cfg hplain
  refine .bind (.tenantBySlug hplain slug) fun tenant =>
    .inTransaction hplain fun l hidle => ?_
  simp only [wp_bind, wp_sqlNow]
  refine ⟨hresume _, fun now => ?_⟩
  refine wp_activeProvisioningJob (hresume _) (fun _ _ => JobOk.keyed) hidle.held (fun l' _ => ?_)
    fun l' row _ hheld hactive => ?_
  · simp
  · simp only [wp_okOr, wp_ensure]
    refine ⟨fun running hrunning => ⟨fun hstatus => ?_, fun _ => trivial⟩, fun _ => trivial⟩
    obtain rfl := some.inj hrunning
    have hopen : row.status = .planned ∨ row.status = .approved := by
      simp only [isActiveOf, Bool.and_eq_true, decide_eq_true_eq] at hactive
      cases hrow : row.status <;> simp_all [JobStatus.isActive]
    refine wp_updateRow_held _ (hresume _) hheld (by simpa using hopen) fun db' _ => ?_
    exact ⟨.cancelled slug' hcall now row hopen, by simp, fun _ => trivial⟩

end Plain

section Provisioner

variable {cfg : Config} {C : Contract Row} {l : Local Row} {E : ApiError → Local Row → Prop}
  {id : Uuid} {worker token : String}

theorem wp_verifyProvisioningClaim {Q : ProvisioningJobRow → Local Row → Prop}
    (hresume : ∀ saved, C.resume saved) (hE : ∀ e l', E e l')
    (hQ : ∀ (row : ProvisioningJobRow) now, l.MayFind C (.job id) row →
      HoldsClaim cfg worker token [now] row → Q row ((l.hold (.job id) row).reading now)) :
    wp C (verifyProvisioningClaim cfg id worker token) l Q E := by
  simp only [verifyProvisioningClaim, wp_bind, wp_lock, wp_okOr, wp_ensure, wp_utcNow, wp_pure]
  refine ⟨hresume _, fun _ _ => ⟨fun _ h => by simp at h, fun _ => hE _ _⟩, fun found hfind =>
    ⟨fun row hrow => ⟨fun hclaimed => ⟨fun deadline hlease => ⟨hresume _, fun now =>
      ⟨fun hnow => ⟨fun stored hstored => ⟨fun hmatches => ?_, fun _ => hE _ _⟩, fun _ => hE _ _⟩,
        fun _ => hE _ _⟩⟩, fun _ => hE _ _⟩, fun _ => hE _ _⟩, fun _ => hE _ _⟩⟩
  obtain rfl := some.inj hrow
  exact hQ found now hfind
    ⟨hclaimed.1, hclaimed.2, by rw [hstored, hmatches.2], deadline, now, hlease, rfl, hnow⟩

theorem HoldsClaim.of_later {now : Instant} {row : ProvisioningJobRow}
    (hclaim : HoldsClaim cfg worker token [now] row) (readings : List Instant) :
    HoldsClaim cfg worker token (readings ++ [now]) row where
  running := hclaim.running
  worker := hclaim.worker
  token := hclaim.token
  lease := by
    obtain ⟨deadline, now', hlease, hnow, hlt⟩ := hclaim.lease
    exact ⟨deadline, now', hlease, by simpa using hnow, hlt⟩

theorem meets_renew (id : Uuid) (rawWorker rawToken : String) :
    wp ((protocol cfg).contract (.renew id rawWorker rawToken))
      (Routes.renewProvisioningLease cfg id rawWorker rawToken) .fresh (fun _ _ => True)
      fun _ _ => True := by
  simp only [Routes.renewProvisioningLease, renewProvisioningLease, wp_bind,
    wp_require, wp_inTransaction, wp_sqlNow]
  refine ⟨fun worker hworker => ⟨fun token htoken => ⟨trivial, trivial, fun sqlTime => ?_⟩,
    fun _ _ => trivial⟩, fun _ _ => trivial⟩
  refine wp_verifyProvisioningClaim (fun _ => trivial) (fun _ _ => ⟨trivial, trivial⟩)
    fun row now _ hclaim => ?_
  simp only [wp_utcNow]
  refine ⟨trivial, fun now' => ?_⟩
  refine wp_updateRow_held row trivial (by simp) (by simp [isRunning, hclaim.running])
    fun db _ => ⟨?_, ?_, fun _ => ⟨trivial, trivial⟩⟩
  · exact .renewed rawWorker rawToken rfl worker token hworker htoken _ sqlTime row
      (hclaim.of_later [now'])
  · simp [protocol, Protocol.contract, callResumes, callCommits]

theorem meets_fail (id : Uuid) (rawWorker rawToken rawCode : String) (rawDetail : Option String) :
    wp ((protocol cfg).contract (.fail id rawWorker rawToken rawCode rawDetail))
      (Routes.failProvisioning cfg id rawWorker rawToken rawCode rawDetail) .fresh
      (fun _ _ => True) fun _ _ => True := by
  simp only [Routes.failProvisioning, failProvisioning, wp_bind, wp_require,
    wp_inTransaction, wp_sqlNow, wp_lock, wp_okOr]
  refine ⟨fun worker hworker => ⟨fun token htoken => ⟨fun failure hfailure => ?_,
    fun _ _ => trivial⟩, fun _ _ => trivial⟩, fun _ _ => trivial⟩
  obtain ⟨code, detail⟩ := failure
  refine ⟨trivial, trivial, fun now => ⟨trivial, fun _ _ => ⟨fun _ h => by simp at h,
    fun _ => ⟨trivial, trivial⟩⟩, fun row hfind => ⟨fun existing hexisting => ?_, fun h => by simp at h⟩⟩⟩
  split_ifs with hfailed
  · simp [protocol, Protocol.contract, callResumes, callCommits]
  · simp only [wp_bind, wp_ensure]
    refine ⟨fun _ => ?_, fun _ => ⟨trivial, trivial⟩⟩
    refine wp_verifyProvisioningClaim (fun _ => trivial) (fun _ _ => ⟨trivial, trivial⟩)
      fun claim now' hclaimed hclaim => ?_
    refine wp_updateRow_held claim trivial (by simp)
      (by simp [isRunning, hclaim.running]) fun db _ => ⟨?_, ?_, fun _ => ⟨trivial, trivial⟩⟩
    · exact .failed rawWorker rawToken rawCode rawDetail rfl worker token code detail hworker htoken
        hfailure now claim hclaim
    · simp only [wp_okOr]
      refine ⟨fun job _ => ?_, fun h => by simp at h⟩
      have hnotifies : (Call.fail id rawWorker rawToken rawCode rawDetail).notifies
          .provisioningFailed := rfl
      exact wp_enqueueEventTx (fun _ => trivial)
        (fun _ _ _ _ => OutboxWrite.enqueued _ hnotifies _ _ _)
        (fun _ => wp_pure.mpr ⟨trivial, trivial, trivial⟩) fun _ _ => ⟨trivial, trivial⟩

theorem together_put (l : Local Row) (db : AList Row) (job : ProvisioningJobRow)
    (tenant : TenantRow) (runtime : RuntimeStatusRow) {tenantId : Uuid}
    (htenant : job.tenantId = tenantId) :
    Together id ((((l.put (.job id) job).seeing db).put (.tenant tenantId) tenant).put
      (.runtime tenantId) runtime).writes := by
  subst htenant
  refine Or.inr ⟨job, ?_, ?_, ?_⟩
  · simp only [put_writes, seeing_writes]
    rw [lookup_insert_ne (by simp), lookup_insert_ne (by simp), lookup_insert]
  · simp [mem_insert]
  · simp [mem_insert]

theorem meets_complete (id : Uuid) (rawWorker rawToken : String)
    (completion : ProvisioningCompletion) :
    wp ((protocol cfg).contract (.complete id rawWorker rawToken completion))
      (Routes.completeProvisioning cfg id rawWorker rawToken completion) .fresh (fun _ _ => True)
      fun _ _ => True := by
  simp only [Routes.completeProvisioning, completeProvisioning, wp_bind,
    wp_require, wp_inTransaction, wp_sqlNow, wp_lock,
    wp_okOr]
  refine ⟨fun worker hworker => ⟨fun token htoken => ⟨fun _ _ => ?_, fun _ _ => trivial⟩,
    fun _ _ => trivial⟩, fun _ _ => trivial⟩
  refine ⟨trivial, trivial, fun now => ⟨trivial, fun _ _ => ⟨fun _ h => by simp at h,
    fun _ => ⟨trivial, trivial⟩⟩, fun row hfind => ⟨fun existing hexisting => ?_, fun h => by simp at h⟩⟩⟩
  obtain rfl := some.inj hexisting
  split_ifs with hsucceeded
  · simp only [wp_bind, wp_ensure, wp_pure]
    exact ⟨fun _ => ⟨trivial, Or.inl rfl, trivial⟩, fun _ => ⟨trivial, trivial⟩⟩
  · simp only [wp_bind, wp_ensure]
    refine ⟨fun _ => ?_, fun _ => ⟨trivial, trivial⟩⟩
    refine wp_verifyProvisioningClaim (fun _ => trivial) (fun _ _ => ⟨trivial, trivial⟩)
      fun claim now' hclaimed hclaim => ?_
    obtain rfl := hclaimed.eq_of_held (hold_held_self ..)
    simp only [wp_okOr, wp_snapshot, wp_utcNow]
    refine ⟨fun sha _ => ⟨fun _ => ⟨trivial, fun db _ => ⟨fun tenant htenant => ⟨trivial,
      fun completedAt => ?_⟩, fun _ => ⟨trivial, trivial⟩⟩⟩, fun _ => ⟨trivial, trivial⟩⟩,
      fun _ => ⟨trivial, trivial⟩⟩
    have htenantMem : Key.tenant claim.tenantId ∈ db := lookup_isSome.mp (by simp [htenant])
    refine wp_updateRow_held claim trivial (by simp)
      (by simp [isRunning, hclaim.running]) fun db' _ => ⟨?_, ?_, fun _ => ⟨trivial, trivial⟩⟩
    · exact .succeeded rawWorker rawToken completion rfl worker token hworker htoken tenant.slug
        completedAt now claim (hclaim.of_later [completedAt])
    · simp only [wp_mapErr]
      refine ⟨fun job hjob => ?_, fun h => by simp at h⟩
      obtain rfl := some.inj hjob
      -- the tenant was seen when its slug was read, so its row is still there to update
      refine wp_updateRow trivial (fun db'' hsees hmiss => ?_)
        (fun _ _ _ _ _ hlost => by simp at hlost) fun db'' tenant' _ _ _ _ => ⟨?_, ?_,
        fun _ => ⟨trivial, trivial⟩⟩
      · have hmem := hsees.present (.tenant claim.tenantId) (Or.inl (Or.inr htenantMem))
        obtain ⟨tenant', htenant'⟩ := isSome_iff_exists.mp (lookup_isSome.mpr hmem)
        simpa using hmiss tenant' htenant'
      · exact ⟨.deployed id rawWorker rawToken completion rfl now tenant', rfl⟩
      · simp only [wp_upsert, wp_pure]
        refine ⟨trivial, .deployed id rawWorker rawToken completion rfl none, fun _ =>
          ⟨trivial, together_put _ _ _ _ _ rfl, trivial⟩, fun old _ =>
          ⟨.deployed id rawWorker rawToken completion rfl (some old), trivial,
            together_put _ _ _ _ _ rfl, trivial⟩, fun _ => ⟨trivial, trivial⟩⟩

structure Claiming (l : Local Row) : Prop where
  saved : l.saved = ∅
  keyed : Keyed l
  idle : ∀ id (row : ProvisioningJobRow), l.writes.lookup (.job id) = some row →
    row.status ≠ .running

namespace Claiming

variable {id : Uuid} {row new : ProvisioningJobRow} (hclaiming : Claiming l)
include hclaiming

theorem hold (hid : row.id = id) : Claiming (l.hold (.job id) row) :=
  ⟨hclaiming.saved, hclaiming.keyed.hold hid, hclaiming.idle⟩

theorem seeing (db : AList Row) : Claiming (l.seeing db) :=
  ⟨hclaiming.saved, hclaiming.keyed, hclaiming.idle⟩

theorem put (hid : new.id = id) (hstatus : new.status ≠ .running) :
    Claiming (l.put (.job id) new) where
  saved := hclaiming.saved
  keyed := hclaiming.keyed.hold hid
  idle other r hr := by
    by_cases heq : other = id
    · subst heq
      rw [put_writes, lookup_insert, some.injEq] at hr
      exact hr ▸ hstatus
    · rw [put_writes, lookup_insert_ne (by simpa using heq)] at hr
      exact hclaiming.idle other r hr

theorem handsOut_none (rawWorker : String) :
    HandsOut cfg rawWorker (.ok (.claim none)) l.writes where
  given id row hrow hrunning := absurd hrunning (hclaiming.idle id row hrow)
  taken claim hclaim := by simp at hclaim

theorem handsOut_claimed {rawWorker worker token : String} (hid : new.id = id)
    (hworker : Validation.workerId rawWorker = .ok worker) (hstatus : new.status = .running)
    (hclaimed : new.claimedBy = some worker)
    (htoken : new.claimTokenHash = some (cfg.sha256 token)) :
    HandsOut cfg rawWorker (.ok (.claim (some ⟨new, token⟩))) (l.put (.job id) new).writes where
  given other r hr hrunning := by
    by_cases heq : other = id
    · subst heq
      rw [put_writes, lookup_insert, some.injEq] at hr
      exact ⟨_, rfl, hr⟩
    · rw [put_writes, lookup_insert_ne (by simpa using heq)] at hr
      exact absurd hrunning (hclaiming.idle other r hr)
  taken claim hclaim := by
    simp only [Except.ok.injEq, Reply.claim.injEq, some.injEq] at hclaim
    subst hclaim
    refine ⟨?_, hstatus, htoken, worker, hworker, hclaimed⟩
    rw [hid, put_writes, lookup_insert]

end Claiming

theorem wp_sweep {rawWorker : String} {rawRegion : Option String} {p : ProvisioningJobRow → Bool}
    {f : ProvisioningJobRow → ProvisioningJobRow} {Q : Unit → Local Row → Prop}
    (hid : ∀ row, (f row).id = row.id) (hstatus : ∀ row, (f row).status ≠ .running)
    (hwrite : ∀ readings id row, p row = true →
      JobWrite cfg (.claim rawWorker rawRegion) readings id .update (some row) (f row))
    (hQ : ∀ l, Claiming l → Q () l) (hE : ∀ l e, Claiming l → E (.database (.constraint e)) l)
    (hclaiming : Claiming l) :
    wp ((protocol cfg).contract (.claim rawWorker rawRegion))
      (Handler.updateWhere (jobWhere p) (setJob f) : Handler Unit) l Q E := by
  refine wp_updateWhere (I := Claiming) (fun _ h => h.saved) (fun l key row h hseen hfind => ?_) hQ hE
    (fun _ db h _ => h.seeing db) hclaiming
  cases key with
  | job id =>
    have hkeyed : ProvisioningJobRow.id row = id := h.keyed.of_mayFind (fun _ _ => JobOk.keyed) hfind
    exact ⟨h.hold hkeyed, fun hp => ⟨hwrite l.readings id row hp,
      h.put ((hid row).trans hkeyed) (hstatus row)⟩⟩
  | _ => simp [jobWhere] at hseen

theorem meets_claim (rawWorker : String) (rawRegion : Option String) :
    wp ((protocol cfg).contract (.claim rawWorker rawRegion))
      (Routes.claimProvisioning cfg rawWorker rawRegion) .fresh
      (fun claim l => HandsOut cfg rawWorker (.ok (.claim claim)) l.saved)
      fun e l => HandsOut cfg rawWorker (.error e) l.saved := by
  have hnothing : ∀ e, HandsOut cfg rawWorker (.error e) ∅ := fun e =>
    ⟨fun id row hrow => by simp at hrow, fun claim hclaim => by simp at hclaim⟩
  have hrollback : ∀ l : Local Row, Claiming l → ∀ e : ApiError,
      callResumes (.claim rawWorker rawRegion) l.saved ∧
        HandsOut cfg rawWorker (.error e) (l.ended l.saved).saved := by
    intro l h e
    rw [ended_saved, h.saved]
    exact ⟨rfl, hnothing _⟩
  simp only [Routes.claimProvisioning, claimProvisioning, wp_bind, wp_require,
    wp_utcNow, wp_inTransaction, wp_sqlNow]
  refine ⟨fun worker hworker => ⟨fun region hregion => ?_, fun _ _ => hnothing _⟩,
    fun _ _ => hnothing _⟩
  refine ⟨rfl, fun utc => ⟨rfl, rfl, fun now => ?_⟩⟩
  refine wp_sweep (fun _ => rfl) (fun _ => by simp [exhausted])
    (fun _ _ row hp => .exhausted rawWorker rawRegion rfl now row hp) (fun l hl => ?_)
    (fun l e hl => hrollback l hl _) ⟨rfl, fun _ _ h => by simp at h, fun _ _ h => by simp at h⟩
  refine wp_sweep (fun _ => rfl) (fun _ => by simp [reapproved])
    (fun _ _ row hp => .reapproved rawWorker rawRegion rfl now row hp) (fun l hl => ?_)
    (fun l e hl => hrollback l hl _) hl
  simp only [wp_snapshot]
  refine ⟨hl.saved, fun db _ => ?_⟩
  refine wp_firstUnlocked (I := Claiming) _ (fun _ h => h.saved) ?_ ?_ ?_
    (hl.seeing db)
  · intro l key hmem row h hfind
    obtain ⟨job, -, rfl⟩ := List.mem_map.mp hmem
    exact h.hold (h.keyed.of_mayFind (fun _ _ => JobOk.keyed) hfind)
  · intro l h
    exact wp_pure.mpr ⟨h.saved, trivial, h.handsOut_none rawWorker⟩
  · intro l key hmem row h hheld hclaimable
    obtain ⟨job, -, rfl⟩ := List.mem_map.mp hmem
    have hid : ProvisioningJobRow.id row = job.id := h.keyed job.id row hheld
    simp only [bind_some, asJob, wp_bind, wp_fresh]
    refine ⟨h.saved, fun id => ?_⟩
    rw [hid]
    have hstatus : row.status = .approved := by
      have := Bool.and_eq_true_iff.mp hclaimable
      simpa using this.1
    refine wp_updateRow_held _ h.saved hheld (by simpa using hstatus) fun db' _ => ⟨?_, ?_, ?_⟩
    · exact .claimed rawWorker rawRegion rfl worker region hworker hregion _ _ now row hclaimable
    · simp only [wp_okOr, wp_pure]
      refine ⟨fun job' hjob' => ?_, fun hnone => by simp at hnone⟩
      obtain rfl := some.inj hjob'
      exact ⟨h.saved, trivial, (h.seeing db').handsOut_claimed hid hworker rfl rfl rfl⟩
    · exact fun e => hrollback _ (h.seeing db') _

end Provisioner

section Lifecycle

variable {cfg : Config} {call : Call} {status : TenantStatus}

theorem plain_of_sets (hsets : call.sets status) : call.plain := by
  cases call <;> trivial

theorem plain_of_parks (hparks : call.parks) : call.plain := by
  cases call <;> trivial

theorem KeepsTo.setStatus (hsets : call.sets status) (slug : String) :
    KeepsTo cfg call (setStatus cfg slug status) := by
  have hplain := plain_of_sets hsets
  have hresume := resume_of_plain cfg hplain
  refine .bind (.snapshot hplain) fun seen => .bind (.ensure _ _) fun _ =>
    .bind (.inTransaction hplain fun l hidle => ?_) fun _ =>
      .tenantBySlug hplain slug
  simp only [updateTenant, wp_bind, wp_sqlNow, wp_snapshot]
  refine ⟨hresume _, fun now => ⟨hresume _, fun db _ => ?_⟩⟩
  cases tenantRow db slug with
  | none => simp
  | some tenant =>
    refine wp_updateRow (hresume _) (fun _ _ _ => by simp) (fun _ _ _ _ _ _ => by simp)
      fun db' row _ _ _ _ => ⟨⟨.status status hsets now row, rfl⟩, by simp, fun _ => trivial⟩

theorem KeepsTo.latestManagementUrl (hplain : call.plain) (tenantId : Uuid) :
    KeepsTo cfg call (latestManagementUrl tenantId) :=
  .bind (.snapshot hplain) fun _ => .pure _

theorem KeepsTo.requestManagement (hplain : call.plain) (context : String)
    (req : ManagementRequest) : KeepsTo cfg call (Routes.requestManagement context req) :=
  .bind (.request hplain req) fun _ => .mapErr (.require _)

theorem keepsTo_saveParkSnapshot (hparks : call.parks) (snapshot : ParkSnapshotRow)
    (upstreamAlreadyParked : Bool) :
    KeepsTo cfg call (saveParkSnapshot snapshot upstreamAlreadyParked) := by
  have hresume := resume_of_plain cfg (plain_of_parks hparks)
  refine .inTransaction (plain_of_parks hparks) fun l _ => ?_
  simp only [wp_bind, wp_sqlNow, wp_upsert, wp_pure]
  exact ⟨hresume _, fun now => ⟨hresume _, hparks, fun _ => trivial, fun _ _ => ⟨hparks, trivial⟩,
    fun _ => trivial⟩⟩

theorem KeepsTo.loadParkSnapshot (hplain : call.plain) (tenantId : Uuid) :
    KeepsTo cfg call (loadParkSnapshot tenantId) :=
  .bind (.snapshot hplain) fun _ => .pure _

theorem keepsTo_consumeParkSnapshot (hparks : call.parks) (tenantId : Uuid) (actor : String) :
    KeepsTo cfg call (consumeParkSnapshot tenantId actor) := by
  have hresume := resume_of_plain cfg (plain_of_parks hparks)
  refine .inTransaction (plain_of_parks hparks) fun l _ => ?_
  simp only [wp_bind, wp_sqlNow]
  refine ⟨hresume _, fun now => ?_⟩
  exact wp_updateRow (hresume _) (fun _ _ _ => by simp) (fun _ _ _ _ _ _ => by simp)
    fun _ _ _ _ _ _ => ⟨hparks, by simp, fun _ => trivial⟩

theorem KeepsTo.restore (hparks : call.parks) (hsets : call.sets .active) (slug url actor : String)
    (tenantId : Uuid) (snapshot : ParkSnapshotRow) (status : TenantStatus) :
    KeepsTo cfg call
      (Routes.restoreTenantFromSnapshot cfg slug tenantId url snapshot status actor) := by
  have hplain := plain_of_parks hparks
  refine .bind (.requestManagement hplain _ _) fun envelope => .bind ?_ fun _ =>
    .bind ?_ fun _ => keepsTo_consumeParkSnapshot hparks tenantId actor
  · exact .whenever _ (.bind (.requestManagement hplain _ _) fun _ =>
      .bind (.request hplain _) fun _ => .pure _)
  · exact .whenever _ (.bind (.setStatus hsets slug) fun _ => .pure _)

theorem keepsTo_target (hplain : call.plain) (slug : String) :
    KeepsTo cfg call (Routes.target cfg slug) := by
  refine .bind (.tenantBySlug hplain slug) fun tenant => ?_
  refine .bind (.ensure _ _) fun _ => .bind (.ensure _ _) fun _ => ?_
  refine .bind (.latestManagementUrl hplain _) fun url => ?_
  exact .bind (.okOr _ _) fun _ => .pure _

theorem keepsTo_suspendTenant (rawSlug : String) :
    KeepsTo cfg (.suspend rawSlug) (Routes.suspendTenant cfg rawSlug) := by
  have hsets : (Call.suspend rawSlug).sets .suspended := rfl
  exact .bind (.require _) fun slug => .setStatus hsets slug

theorem keepsTo_resumeTenant (rawSlug : String) :
    KeepsTo cfg (.resume rawSlug) (Routes.resumeTenant cfg rawSlug) := by
  have hsets : (Call.resume rawSlug).sets .active := rfl
  exact .bind (.require _) fun slug => .setStatus hsets slug

theorem keepsTo_parkTenant (rawSlug actor : String) (reason : Option String) :
    KeepsTo cfg (.park rawSlug actor reason) (Routes.parkTenant cfg rawSlug actor reason) := by
  have hparks : (Call.park rawSlug actor reason).parks := trivial
  have hsets : (Call.park rawSlug actor reason).sets .parked := rfl
  have hplain := plain_of_parks hparks
  refine .bind (.require _) fun slug => ?_
  refine .bind (.tenantBySlug hplain slug) fun checked => ?_
  refine .bind (.ensure _ _) fun _ => .bind (.ensure _ _) fun _ => ?_
  refine (keepsTo_target hplain slug).bind fun ⟨tenant, url⟩ => ?_
  refine .bind (.requestManagement hplain _ _) fun envelope => ?_
  refine .bind (.requestManagement hplain _ _) fun posture => ?_
  refine (keepsTo_saveParkSnapshot hparks _ _).bind fun _ => ?_
  refine .bind (.requestManagement hplain _ _) fun _ => ?_
  exact .setStatus hsets slug

theorem keepsTo_unparkTenant (rawSlug actor : String) :
    KeepsTo cfg (.unpark rawSlug actor) (Routes.unparkTenant cfg rawSlug actor) := by
  have hparks : (Call.unpark rawSlug actor).parks := trivial
  have hsets : (Call.unpark rawSlug actor).sets .active := rfl
  have hplain := plain_of_parks hparks
  refine .bind (.require _) fun slug => ?_
  refine .bind (.tenantBySlug hplain slug) fun tenant => ?_
  refine .bind (.ensure _ _) fun _ => ?_
  refine .bind (.loadParkSnapshot hplain _) fun loaded => ?_
  refine .bind (.ensure _ _) fun _ => .bind (.okOr _ _) fun snapshot => ?_
  refine .bind (.latestManagementUrl hplain _) fun found => ?_
  refine .bind (.okOr _ _) fun url => ?_
  refine .bind (.restore hparks hsets _ _ _ _ _ _) fun _ => ?_
  exact .tenantBySlug hplain slug

end Lifecycle

section Billing

variable {cfg : Config} {provided : String} {req : Routes.BillingWebhookRequest}
  {event : BillingEvent}

theorem webhook_plain : (Call.webhook provided req).plain := trivial

theorem webhook_plans : (Call.webhook provided req).plans := trivial

theorem webhook_parks : (Call.webhook provided req).parks := trivial

theorem apply_none_of_apply {current : Option BillingState} {trial : Bool} {state : BillingState}
    (hstate : BillingState.apply current event trial = some state) :
    BillingState.apply none event trial = some state := by
  rcases current with - | ⟨⟨⟩⟩ <;> cases event <;> simp_all [BillingState.apply]

theorem keepsTo_applyBillingEvent (hevent : BillingEvent.parse req.event = some event)
    (tenantId : Uuid) :
    KeepsTo cfg (.webhook provided req) (applyBillingEvent tenantId (req.input event)) := by
  refine .bind (.utcNow webhook_plain) fun now => .inTransaction webhook_plain fun l hidle => ?_
  simp only [wp_bind, wp_sqlNow, wp_lock]
  refine ⟨trivial, fun sqlTime => ⟨trivial, fun hfree _ => ?_, fun row hfind => ?_⟩⟩
  · split
    · simp
    · rename_i state hstate
      simp only [wp_bind, wp_upsert, wp_pure]
      refine ⟨trivial, .event provided req event rfl hevent false none none rfl _ state hstate _ _,
        fun _ => trivial, fun old _ => ⟨?_, trivial⟩, fun _ => trivial⟩
      rw [hfree]
      exact .event provided req event rfl hevent false (some old) none rfl _ state hstate _ _
  · split
    · simp
    · rename_i state hstate
      simp only [wp_bind, wp_upsert, wp_pure]
      refine ⟨trivial, ?_, fun _ => trivial, fun old hold => ⟨?_, trivial⟩, fun _ => trivial⟩
      · exact .event provided req event rfl hevent false none none rfl _ state
          (apply_none_of_apply hstate) _ _
      · obtain rfl := hold.eq_of_held (hold_held_self ..)
        rw [hold_held_self]
        exact .event provided req event rfl hevent true (some old) _ rfl _ state hstate _ _

theorem keepsTo_anchor (hevent : BillingEvent.parse req.event = some .subscriptionStarted)
    (tenantId : Uuid) (startedAt : Instant) :
    KeepsTo cfg (.webhook provided req) (anchorGuaranteeToSubscription tenantId startedAt) := by
  refine .inTransaction webhook_plain fun l _ => ?_
  rw [wp_bind]
  refine wp_updateRow trivial (fun _ _ _ => by simp) (fun _ _ _ _ _ _ => by simp)
    fun db row _ _ _ hmoved => ⟨?_, by simp, fun _ => trivial⟩
  exact .anchored provided req rfl hevent startedAt _ row (by simpa using hmoved)

theorem keepsTo_provisionOnPayment (slug : String) :
    KeepsTo cfg (.webhook provided req) (Routes.provisionOnPayment cfg slug) := by
  refine .bind (.attempt (.bind (.require _) fun version =>
    .bind (.requestDeployment webhook_plans _ _ _ _ _) fun _ => .pure _)) fun requested => ?_
  split
  · exact .pure _
  · exact .bind (.planProvisioning webhook_plans _ _ _ _) fun _ => .pure _
  · exact .bind (.planProvisioning webhook_plans _ _ _ _) fun _ => .pure _
  · exact .throw _

theorem keepsTo_onSubscriptionStarted
    (hevent : BillingEvent.parse req.event = some .subscriptionStarted) (slug : String)
    (tenant : TenantRow) (recorded : Option Instant) :
    KeepsTo cfg (.webhook provided req)
      (Routes.onSubscriptionStarted cfg slug tenant recorded) := by
  cases recorded with
  | none =>
    refine .bind (.utcNow webhook_plain) fun startedAt => (keepsTo_anchor hevent _ _).bind fun _ => ?_
    exact .whenever _ (keepsTo_provisionOnPayment slug)
  | some startedAt =>
    refine .bind (.pure startedAt) fun startedAt => (keepsTo_anchor hevent _ _).bind fun _ => ?_
    exact .whenever _ (keepsTo_provisionOnPayment slug)

theorem keepsTo_onPaymentSucceeded (slug : String) (tenant : TenantRow) :
    KeepsTo cfg (.webhook provided req) (Routes.onPaymentSucceeded cfg slug tenant) := by
  refine .bind (.loadParkSnapshot webhook_plain _) fun loaded => ?_
  split_ifs
  · exact .pure _
  · refine .bind (.okOr _ _) fun snapshot => ?_
    refine .bind (.latestManagementUrl webhook_plain _) fun found => ?_
    refine .bind (.okOr _ _) fun url => ?_
    exact .bind (.restore webhook_parks rfl _ _ _ _ _ _) fun _ => .pure _

theorem keepsTo_billingWebhook :
    KeepsTo cfg (.webhook provided req) (Routes.billingWebhook cfg provided req) := by
  refine .bind (.okOr _ _) fun secret => .bind (.ensure _ _) fun _ => ?_
  cases hevent : BillingEvent.parse req.event with
  | none => exact .pure _
  | some event =>
    refine .bind (.require _) fun slug => ?_
    refine .bind (.tenantBySlug webhook_plain slug) fun tenant => ?_
    refine (keepsTo_applyBillingEvent hevent _).bind fun ⟨previous, state, recorded⟩ => ?_
    cases event with
    | subscriptionStarted =>
      exact (keepsTo_onSubscriptionStarted hevent _ _ _).bind fun _ => .pure _
    | paymentSucceeded => exact (keepsTo_onPaymentSucceeded _ _).bind fun _ => .pure _
    | paymentFailed | subscriptionCanceled | subscriptionRefunded => exact .pure _

end Billing

section Telemetry

variable {cfg : Config} {slug : String} {input : RuntimeReportRequest} {l : Local Row}

theorem report_plain : (Call.report slug input).plain := trivial

structure Reports (cfg : Config) (slug : String) (input : RuntimeReportRequest) {α : Type}
    (h : Handler α) : Prop where
  reports : ∀ l : Local Row, wp ((protocol cfg).contract (.report slug input)) h l
    (fun _ _ => True) fun _ _ => True

section Statements

variable {α β : Type} {h : Handler α}

theorem Reports.bind {f : α → Handler β} (hh : Reports cfg slug input h)
    (hf : ∀ a, Reports cfg slug input (f a)) : Reports cfg slug input (h >>= f) := by
  refine ⟨fun l => ?_⟩
  rw [wp_bind]
  exact wp_mono (fun a l' _ => (hf a).reports l') (fun _ _ _ => trivial) (hh.reports l)

theorem Reports.pure (a : α) : Reports cfg slug input (Pure.pure a) :=
  ⟨fun _ => wp_pure.mpr trivial⟩

theorem Reports.sqlNow : Reports cfg slug input Handler.sqlNow :=
  ⟨fun _ => wp_sqlNow.mpr ⟨trivial, fun _ => trivial⟩⟩

theorem Reports.utcNow : Reports cfg slug input Handler.utcNow :=
  ⟨fun _ => wp_utcNow.mpr ⟨trivial, fun _ => trivial⟩⟩

theorem Reports.whenever {body : Handler Unit} (condition : Prop) [Decidable condition]
    (hbody : Reports cfg slug input body) :
    Reports cfg slug input (whenever condition body) :=
  ⟨fun l => wp_whenever.mpr ⟨fun _ => hbody.reports l, fun _ => trivial⟩⟩

theorem Reports.forSome {body : α → Handler Unit} (value : Option α)
    (hbody : ∀ a, value = some a → Reports cfg slug input (body a)) :
    Reports cfg slug input (Handler.forSome value body) :=
  ⟨fun l => wp_forSome.mpr ⟨fun a ha => (hbody a ha).reports l, fun _ => trivial⟩⟩

theorem Reports.upsert {key : Key} {row : Row key} {update : Row key → Row key}
    (hrow : ∀ readings access, callWrites cfg (.report slug input) readings access key none row)
    (hupdate : ∀ readings access old,
      callWrites cfg (.report slug input) readings access key (some old) (update old)) :
    Reports cfg slug input (Handler.upsert key row update) :=
  ⟨fun _ => wp_upsert.mpr ⟨trivial, hrow _ _, fun _ => trivial,
    fun _ _ => ⟨hupdate _ _ _, trivial⟩, fun _ => trivial⟩⟩

end Statements

theorem Reports.enqueueEventTx (tenantId : Uuid) (event : NotifierEvent) (payload : Json) :
    Reports cfg slug input (enqueueEventTx tenantId event payload) :=
  ⟨fun _ => wp_enqueueEventTx (fun _ => trivial)
    (fun _ _ _ _ => OutboxWrite.enqueued _ (by trivial) _ _ _) (fun _ => trivial) fun _ _ => trivial⟩

theorem reports_raiseOutreachAlerts (tenantId : Uuid) (now : Instant) :
    Reports cfg slug input (raiseOutreachAlerts tenantId input now) := by
  unfold raiseOutreachAlerts
  split_ifs
  · exact .pure _
  · refine .bind ⟨fun _ => ?_⟩ fun previous => ?_
    · exact wp_lock.mpr ⟨trivial, fun _ _ => trivial, fun _ _ => trivial⟩
    · refine .bind (.upsert ?_ ?_) fun _ => ?_
      · exact fun _ _ => trivial
      · exact fun _ _ _ => trivial
      refine .bind (.whenever _ (.enqueueEventTx _ _ _)) fun _ => ?_
      refine .bind (.forSome _ fun waiting _ => .whenever _ (.enqueueEventTx _ _ _)) fun _ => ?_
      exact .forSome _ fun lanes _ => .whenever _ (.enqueueEventTx _ _ _)

theorem reports_insertGuarantee (tenantId : Uuid) (now : Instant) (fans : Int)
    (hfans : input.northStarFans = some fans) :
    Reports cfg slug input (Handler.insert (Key.guarantee tenantId)
      (firstGuarantee tenantId fans input.lastHeartbeatAt now)) :=
  ⟨fun _ => wp_insert.mpr ⟨trivial, fun db _ =>
    ⟨.measured slug input rfl fans hfans now db, fun _ => trivial⟩, trivial, trivial⟩⟩

theorem keepsTo_reportRuntime (slug' : String) :
    KeepsTo cfg (.report slug input) (reportRuntime cfg slug' input) := by
  refine .bind (.tenantBySlug report_plain slug') fun tenant =>
    .inTransaction report_plain fun l _ => Reports.reports ?_ l
  refine .bind .sqlNow fun now => ?_
  refine .bind ?_ fun runtime => ?_
  · exact .upsert (fun _ _ => .report slug input rfl now none)
      fun _ _ old => .report slug input rfl now (some old)
  refine .bind (.forSome _ fun fans hfans => .bind (reports_insertGuarantee _ now fans hfans)
    fun _ => .pure _) fun _ => ?_
  refine .bind .utcNow fun utc => ?_
  refine .bind (.whenever _ (.forSome _ fun event _ => .enqueueEventTx _ _ _)) fun _ => ?_
  refine (reports_raiseOutreachAlerts _ now).bind fun _ => ?_
  exact .bind (.whenever _ (.enqueueEventTx _ _ _)) fun _ => .pure _

theorem keepsTo_tenantGuarantee (slug : String) :
    KeepsTo cfg (.guarantee slug) (Routes.tenantGuarantee cfg slug) := by
  have hplain : (Call.guarantee slug).plain := trivial
  refine .bind (.require _) fun slug => ?_
  refine .bind (.tenantBySlug hplain slug) fun tenant => ?_
  refine .bind (.tenantBySlug hplain tenant.tenant.slug) fun tenant => ?_
  refine .bind (.snapshot hplain) fun seen => ?_
  exact .bind (.utcNow hplain) fun now => .pure _

end Telemetry

section Calls

variable {cfg : Config} {call : Call} {α : Type} {f : α → Reply} {h : Handler α}

theorem keepsTo_route_plan (rawSlug actor : String) (version : Option String) (keys : Option Json) :
    KeepsTo cfg (.plan rawSlug version keys actor)
      (Routes.planProvisioning cfg rawSlug version keys actor) := by
  have hplans : (Call.plan rawSlug version keys actor).plans := trivial
  refine .bind (.require _) fun slug => ?_
  refine .bind (.tenantBySlug (plain_of_plans hplans) slug) fun tenant => ?_
  exact .bind (.require _) fun version => .planProvisioning hplans _ _ _ _

theorem keepsTo_route_provision (rawSlug actor : String) (version : Option String) :
    KeepsTo cfg (.provision rawSlug version actor)
      (Routes.provisionTenant cfg rawSlug version actor) := by
  have hplans : (Call.provision rawSlug version actor).plans := trivial
  refine .bind (.require _) fun slug => .bind (.ensure _ _) fun _ => ?_
  exact .bind (.require _) fun version => .requestDeployment hplans _ _ _ _ _

theorem keepsTo_route_cancel (rawSlug : String) :
    KeepsTo cfg (.cancel rawSlug) (Routes.cancelProvisioning cfg rawSlug) := by
  have hplain : (Call.cancel rawSlug).plain := trivial
  refine .bind (.require _) fun slug => ?_
  exact .bind (.tenantBySlug hplain slug) fun tenant => keepsTo_cancelProvisioning _ rawSlug rfl

theorem keepsTo_route_report (rawSlug : String) (input : RuntimeReportRequest) :
    KeepsTo cfg (.report rawSlug input) (Routes.reportRuntime cfg rawSlug input) := by
  refine .bind (.require _) fun slug => ?_
  refine .bind (.utcNow report_plain) fun now => ?_
  exact .bind (.require _) fun _ => keepsTo_reportRuntime slug

theorem keepsTo_claimDueNotifications (deliver : PendingNotification → Option String) (limit : Nat) :
    KeepsTo cfg (.dispatch deliver) (claimDueNotifications limit) := by
  refine .inTransaction trivial fun l _ => ?_
  simp only [wp_bind, wp_sqlNow, wp_snapshot, wp_shuffle]
  refine ⟨trivial, fun now => ⟨trivial, fun seen _ => ⟨trivial, fun due _ => ?_⟩⟩⟩
  refine wp_takeUnlocked _ (fun _ => trivial) fun l ids hids => ?_
  split_ifs
  · exact wp_pure.mpr trivial
  · simp only [wp_bind, wp_snapshot, wp_shuffle]
    refine ⟨trivial, fun joined _ => ⟨trivial, fun order _ => ?_⟩⟩
    refine wp_updateWhere (I := fun _ => True) (fun _ _ => trivial)
      (fun _ key row _ hseen _ => ⟨trivial, fun _ => ⟨?_, trivial⟩⟩)
      (fun _ _ => wp_pure.mpr trivial) (fun _ _ _ => trivial) (fun _ _ _ _ => trivial) trivial
    -- only rows of the outbox have been taken
    obtain ⟨-, hmem⟩ := hseen
    obtain ⟨_, houtbox⟩ := hids key (by simpa using hmem)
    cases key with
    | outbox id => exact .dispatched deliver rfl row _
    | _ => simp [outboxWhere] at houtbox

theorem keepsTo_completeNotification (deliver : PendingNotification → Option String) (id : Uuid)
    (error : Option String) :
    KeepsTo cfg (.dispatch deliver) (completeNotification id error) := by
  refine .inTransaction trivial fun l _ => ?_
  simp only [wp_bind, wp_sqlNow]
  refine ⟨trivial, fun now => ?_⟩
  have hrecord (qualifies : OutboxRow → Bool) (set : AList Row → OutboxRow → OutboxRow) :
      wp ((protocol cfg).contract (.dispatch deliver))
        (Handler.updateRow (Key.outbox id) qualifies set : Handler (Option OutboxRow)) l
        (fun _ l' => wp ((protocol cfg).contract (.dispatch deliver)) (pure () : Handler Unit) l'
          (fun _ _ => True) fun _ _ => True) fun _ _ => True := by
    refine wp_updateRow trivial (fun _ _ _ => by simp) (fun _ _ _ _ _ _ => by simp) ?_
    exact fun _ row _ _ _ _ => ⟨.dispatched deliver rfl row _, by simp, fun _ => trivial⟩
  cases error with
  | none => exact hrecord _ _
  | some error => exact hrecord _ _

theorem keepsTo_deliverEach (deliver : PendingNotification → Option String)
    (notifications : List PendingNotification) :
    KeepsTo cfg (.dispatch deliver) (Routes.deliverEach deliver notifications) := by
  induction notifications with
  | nil => exact .pure _
  | cons notification rest ih =>
    exact (keepsTo_completeNotification deliver _ _).bind fun _ => ih

structure Meets (cfg : Config) (call : Call) (h : Handler Reply) : Prop where
  meets : h.run.wp ((protocol cfg).contract call) .fresh (callAnswers cfg call)

theorem meets_of_wp {Q : α → Local Row → Prop} {E : ApiError → Local Row → Prop}
    (hQ : ∀ a l, Q a l → callAnswers cfg call (.ok (f a)) l)
    (hE : ∀ e l, E e l → callAnswers cfg call (.error e) l)
    (hwp : wp ((protocol cfg).contract call) h .fresh Q E) : Meets cfg call (f <$> h) := by
  refine ⟨wp_run.mpr (wp_map.mpr ?_)⟩
  exact wp_mono hQ hE hwp

theorem answers_of_plain (hplain : call.plain) (answer : Except ApiError Reply) (l : Local Row) :
    callAnswers cfg call answer l := by
  cases call <;> trivial

theorem KeepsTo.handled (hh : KeepsTo cfg call h) (hplain : call.plain) :
    Meets cfg call (f <$> h) ∧ Closed schema (f <$> h) :=
  ⟨meets_of_wp (fun _ _ _ => answers_of_plain hplain _ _)
    (fun _ _ _ => answers_of_plain hplain _ _) (hh.keeps .fresh idle_fresh), .map hh.closed⟩

/-- Every route stays within the writes of its call and leaves no transaction open. -/
theorem handle_keeps (call : Call) :
    Meets cfg call (handle cfg call) ∧ Closed schema (handle cfg call) := by
  cases call with
  | suspend slug => exact (keepsTo_suspendTenant slug).handled trivial
  | resume slug => exact (keepsTo_resumeTenant slug).handled trivial
  | park slug actor reason => exact (keepsTo_parkTenant slug actor reason).handled trivial
  | unpark slug actor => exact (keepsTo_unparkTenant slug actor).handled trivial
  | webhook provided req => exact keepsTo_billingWebhook.handled trivial
  | plan slug version keys actor => exact (keepsTo_route_plan slug actor version keys).handled trivial
  | provision slug version actor => exact (keepsTo_route_provision slug actor version).handled trivial
  | cancel slug => exact (keepsTo_route_cancel slug).handled trivial
  | claim worker region =>
    refine ⟨meets_of_wp (fun _ _ h => h) (fun _ _ h => h) (meets_claim worker region), ?_⟩
    exact .map (.bind (.require _) fun _ => .bind (.require _) fun _ => .bind .utcNow fun _ =>
      .inTransaction)
  | renew id worker token =>
    refine ⟨meets_of_wp (fun _ _ _ => trivial) (fun _ _ _ => trivial) (meets_renew id worker token), ?_⟩
    exact .map (.bind (.require _) fun _ => .bind (.require _) fun _ => .inTransaction)
  | complete id worker token completion =>
    refine ⟨meets_of_wp (fun _ _ _ => trivial) (fun _ _ _ => trivial)
      (meets_complete id worker token completion), ?_⟩
    exact .map (.bind (.require _) fun _ => .bind (.require _) fun _ => .bind (.require _) fun _ =>
      .inTransaction)
  | fail id worker token code detail =>
    refine ⟨meets_of_wp (fun _ _ _ => trivial) (fun _ _ _ => trivial)
      (meets_fail id worker token code detail), ?_⟩
    exact .map (.bind (.require _) fun _ => .bind (.require _) fun _ =>
      .bind (.require _) fun ⟨_, _⟩ => .inTransaction)
  | report slug input => exact (keepsTo_route_report slug input).handled trivial
  | guarantee slug => exact (keepsTo_tenantGuarantee slug).handled trivial
  | dispatch deliver =>
    exact ((keepsTo_claimDueNotifications deliver 8).bind
      (keepsTo_deliverEach deliver)).handled trivial

end Calls

end ControlPlane
