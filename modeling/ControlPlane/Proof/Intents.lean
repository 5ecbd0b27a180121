import ControlPlane.Proof.Guarantee
import ControlPlane.Proof.Parking

/-!
# What a request for a deployment makes of the job there is

Planning and approval both try to insert a job, look at the one there is if they cannot, and compare
its version first. What each leaves when it runs alone is a matter of the job it finds.
-/

namespace ControlPlane

open ReadCommitted ReadCommitted.Handler Store Option

variable {cfg : Config} {db : AList Row} {up : Upstream} {n : Nat} {tenantId : Uuid}
  {tenant : TenantRow} {job : ProvisioningJobRow} {slug : String}

def Idle (db : AList Row) (tenantId : Uuid) : Prop :=
  ∀ id (row : ProvisioningJobRow), db.lookup (.job id) = some row → isActiveOf tenantId row = false

structure SoleActive (db : AList Row) (tenantId : Uuid) (job : ProvisioningJobRow) : Prop where
  stored : db.lookup (.job job.id) = some job
  active : isActiveOf tenantId job = true
  sole : ∀ id (row : ProvisioningJobRow), db.lookup (.job id) = some row →
    isActiveOf tenantId row = true → id = job.id

structure Orderly (db : AList Row) (tenantId : Uuid) (n : Nat) : Prop where
  unissued : ∀ id, n ≤ id → db.lookup (.job id) = none
  keyed : ∀ id (row : ProvisioningJobRow), db.lookup (.job id) = some row → row.id = id
  checked : ∀ id (row : ProvisioningJobRow), db.lookup (.job id) = some row → jobCheck row = true
  sole : ∀ id id' (row row' : ProvisioningJobRow), db.lookup (.job id) = some row →
    db.lookup (.job id') = some row' → isActiveOf tenantId row = true →
    isActiveOf tenantId row' = true → id = id'

theorem Orderly.idle_or_sole (horderly : Orderly db tenantId n) :
    Idle db tenantId ∨ ∃ job, SoleActive db tenantId job := by
  by_cases hidle : Idle db tenantId
  · exact Or.inl hidle
  · simp only [Idle, not_forall, Bool.not_eq_false] at hidle
    obtain ⟨id, job, hstored, hactive⟩ := hidle
    have hid := horderly.keyed id job hstored
    subst hid
    exact Or.inr ⟨job, hstored, hactive, fun id' row' hrow' hactive' =>
      horderly.sole id' job.id row' job hrow' hstored hactive' hactive⟩

theorem SoleActive.eq {other : ProvisioningJobRow} (hsole : SoleActive db tenantId job)
    (hother : SoleActive db tenantId other) : other = job := by
  have hid := hsole.sole other.id other hother.stored hother.active
  have hstored := hother.stored
  rw [hid, hsole.stored] at hstored
  exact (some.inj hstored).symm

theorem SoleActive.not_idle (hsole : SoleActive db tenantId job) : ¬ Idle db tenantId := by
  intro hidle
  cases hsole.active.symm.trans (hidle job.id job hsole.stored)

variable {key : Key} {row : Row key}

theorem Orderly.saved (hkey : ∀ id, Key.job id ≠ key) (horderly : Orderly db tenantId n) :
    Orderly (saved db key row) tenantId n := by
  have hsame : ∀ id, (ReadCommitted.saved db key row).lookup (.job id) = db.lookup (.job id) :=
    fun id => lookup_saved_of_ne _ _ (hkey id)
  obtain ⟨hunissued, hkeyed, hchecked, hsole⟩ := horderly
  refine ⟨?_, ?_, ?_, ?_⟩ <;> simp only [hsame] <;> assumption

theorem soleActive_saved_iff (hkey : ∀ id, Key.job id ≠ key) :
    SoleActive (saved db key row) tenantId job ↔ SoleActive db tenantId job := by
  have hsame : ∀ id, (saved db key row).lookup (.job id) = db.lookup (.job id) :=
    fun id => lookup_saved_of_ne _ _ (hkey id)
  constructor <;> rintro ⟨hstored, hactive, hsole⟩ <;> refine ⟨?_, hactive, ?_⟩ <;>
    simp only [hsame] at * <;> assumption

theorem Idle.soleActive_saved (hidle : Idle db tenantId) (hactive : isActiveOf tenantId job = true) :
    SoleActive (saved db (.job job.id) job) tenantId job where
  stored := lookup_saved_self ..
  active := hactive
  sole id row hrow hrow' := by
    by_contra hne
    rw [lookup_saved_of_ne _ _ (by simpa using hne)] at hrow
    cases hrow'.symm.trans (hidle id row hrow)

theorem SoleActive.updated {new : ProvisioningJobRow} (hsole : SoleActive db tenantId job)
    (hid : new.id = job.id) (hactive : isActiveOf tenantId new = true) :
    SoleActive (saved db (.job job.id) new) tenantId new where
  stored := by rw [hid]; exact lookup_saved_self ..
  active := hactive
  sole id row hrow hrow' := by
    by_contra hne
    rw [hid] at hne
    rw [lookup_saved_of_ne _ _ (by simpa using hne)] at hrow
    exact hne (hsole.sole id row hrow hrow')

theorem lookup_of_mem_jobsOf (hjob : db.lookup (.job job.id) = some job) : job ∈ jobsOf db := by
  refine List.mem_filterMap.mpr ⟨.job job.id, ?_, hjob⟩
  exact AList.mem_keys.mp (AList.lookup_isSome.mp (by rw [hjob]; rfl))

def activeCandidates (db : AList Row) (tenantId : Uuid) : List ProvisioningJobRow :=
  (((jobsOf db).filter (isActiveOf tenantId)).insertionSort older).reverse

theorem mem_activeCandidates : job ∈ activeCandidates db tenantId ↔
    job ∈ jobsOf db ∧ isActiveOf tenantId job = true := by
  rw [activeCandidates, List.mem_reverse, (List.perm_insertionSort _ _).mem_iff, List.mem_filter]

theorem SoleActive.firstOf (hsole : SoleActive db tenantId job) :
    firstOf db (jobWhere (isActiveOf tenantId)) (jobKeys (activeCandidates db tenantId)) =
      some ⟨.job job.id, job⟩ := by
  have hmem : job ∈ activeCandidates db tenantId :=
    mem_activeCandidates.mpr ⟨lookup_of_mem_jobsOf hsole.stored, hsole.active⟩
  cases hall : activeCandidates db tenantId with
  | nil => simp [hall] at hmem
  | cons first rest =>
    have hfirst : first ∈ activeCandidates db tenantId := by
      rw [hall]
      exact List.mem_cons_self
    obtain ⟨hstored, hactive⟩ := mem_activeCandidates.mp hfirst
    obtain ⟨id, hrow⟩ := mem_jobsOf hstored
    obtain rfl := hsole.sole id first hrow hactive
    rw [hsole.stored, some.injEq] at hrow
    subst hrow
    simp [ReadCommitted.Handler.firstOf, jobKeys, hsole.stored, jobWhere, hsole.active]

variable {E : ApiError → View Row Upstream → Prop} {v : View Row Upstream}

theorem seen_between (engaged : Bool) : { View.between db up n with engaged }.seen = db :=
  AList.empty_union

theorem serial_activeProvisioningJob {Q : Option ProvisioningJobRow → View Row Upstream → Prop}
    (hsole : SoleActive db tenantId job)
    (hQ : ∀ engaged, Q (some job) { View.between db up n with engaged }) :
    serial schema (activeProvisioningJob tenantId) (.between db up n) Q E := by
  simp only [activeProvisioningJob, serial_bind, serial_snapshot, serial_pure, View.between_seen]
  refine serial_firstLocked fun v' hv' => ?_
  rw [show (((jobsOf db).filter (isActiveOf tenantId)).insertionSort older).reverse =
    activeCandidates db tenantId from rfl, View.between_seen, hsole.firstOf]
  rcases hv' with rfl | rfl
  · exact hQ false
  · exact hQ true

theorem occupied_iff :
    occupied schema db key (.activeJob tenantId) = true ↔
      ∃ (id : Uuid) (row : ProvisioningJobRow), Key.job id ≠ key ∧
        db.lookup (.job id) = some row ∧ isActiveOf tenantId row = true := by
  simp only [occupied, List.any_eq_true, Bool.decide_and, Bool.and_eq_true, decide_eq_true_eq]
  constructor
  · rintro ⟨other, -, hne, hindex⟩
    obtain ⟨id, rfl, row, hrow, hactive, htenant⟩ := entry_activeJob_iff.mp hindex
    exact ⟨id, row, hne, hrow, by simp [isActiveOf, hactive, htenant]⟩
  · rintro ⟨id, row, hne, hrow, hactive⟩
    simp only [isActiveOf, Bool.and_eq_true, decide_eq_true_eq] at hactive
    have hkey : Key.job id ∈ db.keys := AList.mem_keys.mp (AList.lookup_isSome.mp (by rw [hrow]; rfl))
    exact ⟨.job id, hkey, hne, entry_activeJob_iff.mpr ⟨id, rfl, row, hrow, hactive.2, hactive.1⟩⟩

variable {version : Option String} {plan : Json} {actor : String} {now : Instant} {id : Uuid}
  {status : JobStatus} {Q : ProvisioningJobRow × Bool → View Row Upstream → Prop}

theorem newJob_active (hstatus : status.isActive = true) :
    isActiveOf tenantId (newJob id tenantId status version plan actor now) = true := by
  simp [isActiveOf, newJob, hstatus]

theorem serial_insert_newJob {Q : Bool → View Row Upstream → Prop}
    (horderly : Orderly db tenantId n) (hid : n ≤ id) (hactive : status.isActive = true)
    (hrunning : status ≠ .running)
    (hidle : Idle db tenantId → Q true ((View.between db up n).put (.job id)
      (newJob id tenantId status version plan actor now)))
    (hbusy : ∀ job, SoleActive db tenantId job → Q false (.between db up n)) :
    serial schema (ReadCommitted.Handler.insert (Key.job id)
      fun _ => newJob id tenantId status version plan actor now) (.between db up n) Q E := by
  have hnew : db.lookup (.job id) = none := horderly.unissued id hid
  have hcheck : schema.check (.job id) (newJob id tenantId status version plan actor now) = true :=
    jobCheck_of_jobOk (.newJob hrunning)
  have hindex : schema.index (.job id) (newJob id tenantId status version plan actor now) =
      some (.activeJob tenantId) := by
    simp [schema, rowIndex, jobIndex, newJob, hactive]
  have hverdict : (View.between db up n).verdict schema (.job id) none
      (newJob id tenantId status version plan actor now) =
        if occupied schema db (.job id) (.activeJob tenantId) = true then .refuse .unique
        else .accept := by
    have hempty : occupied schema (∅ : AList Row) (.job id) (.activeJob tenantId) = false := rfl
    simp [View.verdict, hcheck, hindex, View.between, hempty]
  rw [serial_insert, View.between_seen, hverdict]
  rcases horderly.idle_or_sole with hrest | ⟨job, hsole⟩
  · have hfree : ¬ occupied schema db (.job id) (.activeJob tenantId) = true := by
      intro hoccupied
      obtain ⟨other, row, -, hrow, hrowActive⟩ := occupied_iff.mp hoccupied
      cases hrowActive.symm.trans (hrest other row hrow)
    have hunstored : Key.job id ∉ db := by
      rw [← AList.lookup_eq_none]
      exact hnew
    simp only [if_neg hfree]
    exact ⟨fun _ _ => hidle hrest, by simp [hunstored], by simp⟩
  · have htaken : occupied schema db (.job id) (.activeJob tenantId) = true := by
      refine occupied_iff.mpr ⟨job.id, job, ?_, hsole.stored, hsole.active⟩
      rintro ⟨rfl⟩
      cases hsole.stored.symm.trans hnew
    simp only [if_pos htaken]
    exact ⟨by simp, fun _ => hbusy job hsole, by simp⟩

def otherVersion (job : ProvisioningJobRow) (desiredVersion : Option String) : ApiError :=
  .conflict ("active provisioning plan already targets " ++ defaultVersion job.desiredVersion ++
    "; finish or cancel it before requesting " ++ defaultVersion desiredVersion)

theorem serial_planProvisioning {keys : Option Json} (htenant : tenantRow db slug = some tenant)
    (horderly : Orderly db tenant.id n)
    (hidle : ∀ id now, Idle db tenant.id → n ≤ id → Q (newJob id tenant.id .planned version
      (provisioningPlan tenant keys) actor now, true) (.between (saved db (.job id)
      (newJob id tenant.id .planned version (provisioningPlan tenant keys) actor now)) up n))
    (hsame : ∀ job, SoleActive db tenant.id job → job.desiredVersion = version →
      Q (job, false) (.between db up n))
    (hother : ∀ job, SoleActive db tenant.id job → job.desiredVersion ≠ version →
      E (otherVersion job version) (.between db up n)) :
    serial schema (planProvisioning cfg slug version keys actor) (.between db up n) Q E := by
  simp only [planProvisioning, serial_bind]
  refine serial_knownTenant htenant fun clock => ?_
  simp only [serial_fresh, serial_inTransaction, serial_bind, serial_sqlNow]
  intro id hid now
  refine serial_insert_newJob horderly hid rfl (by simp) (fun hrest => ?_) fun job hsole => ?_
  · rw [if_pos rfl, serial_pure, View.between_put]
    exact hidle id now hrest hid
  · rw [if_neg (by simp), serial_bind]
    refine serial_activeProvisioningJob hsole fun engaged => ?_
    simp only [serial_bind, serial_okOr, serial_ensure, serial_pure, some.injEq]
    refine ⟨fun found hfound => ?_, by simp⟩
    subst hfound
    refine ⟨fun hversion => ?_, hother job hsole⟩
    rw [seen_between]
    exact hsame job hsole hversion

theorem approvePlan_active {version : String} (hactive : isActiveOf tenantId job = true) :
    isActiveOf tenantId (approvePlan plan version now job) = true := by
  simp only [isActiveOf, Bool.and_eq_true, decide_eq_true_eq] at hactive
  simp [isActiveOf, approvePlan, hactive.1, JobStatus.isActive]

theorem verdict_approvePlan {version : String} (hplanned : job.status = .planned)
    (hchecked : jobCheck job = true) :
    v.verdict schema (.job job.id) (some job) (approvePlan plan version now job) = .accept := by
  have hclaim : claimCheck job = true := by
    simp only [jobCheck, Bool.and_eq_true] at hchecked
    exact hchecked.1.2
  obtain ⟨hhash, hlease⟩ := claimCheck_of_not_running hclaim (by simp [hplanned])
  have hreleased : claimCheck (approvePlan plan version now job) = true := by
    simp [claimCheck, approvePlan, hhash, hlease]
  have hcheck : schema.check (.job job.id) (approvePlan plan version now job) = true := by
    simp only [jobCheck, Bool.and_eq_true] at hchecked
    have herror : errorCheck (approvePlan plan version now job) = true := hchecked.2
    change jobCheck (approvePlan plan version now job) = true
    simp only [jobCheck, hreleased, herror, Bool.and_true]
    exact hchecked.1.1
  have hindex : schema.index (.job job.id) (approvePlan plan version now job) =
      schema.index (.job job.id) job := by
    simp [schema, rowIndex, jobIndex, approvePlan, hplanned, JobStatus.isActive]
  have hentered : schema.index (.job job.id) job = some (.activeJob job.tenantId) := by
    simp [schema, rowIndex, jobIndex, hplanned, JobStatus.isActive]
  simp [View.verdict, hcheck, hindex, hentered]

def specOf (cfg : Config) (version : String) : TenantDeploymentSpec where
  desiredVersion := version
  apiImage := cfg.provisionerApiImage
  workerImage := cfg.provisionerWorkerImage
  providerKeys := none

def otherTarget (job : ProvisioningJobRow) (version : String) : ApiError :=
  .conflict ("active provisioning job already targets " ++ defaultVersion job.desiredVersion ++
    "; finish or cancel it before requesting " ++ version)

structure Deployable (tenant : TenantRow) : Prop where
  canProvision : tenant.canProvision = true
  notSuspended : tenant.status ≠ .suspended
  notParked : tenant.status ≠ .parked

theorem serial_requestDeployment {version : String} (htenant : tenantRow db slug = some tenant)
    (hdeployable : Deployable tenant) (horderly : Orderly db tenant.id n)
    (hunplanned : ∀ e, deploymentPlan cfg tenant (specOf cfg version) = .error e → E e (.between db up n))
    (hidle : ∀ plan id now, deploymentPlan cfg tenant (specOf cfg version) = .ok plan →
      Idle db tenant.id → n ≤ id → Q (newJob id tenant.id .approved (some version) plan actor now,
      true) (.between (saved db (.job id) (newJob id tenant.id .approved
      (some version) plan actor now)) up n))
    (hplanned : ∀ plan now job, deploymentPlan cfg tenant (specOf cfg version) = .ok plan →
      SoleActive db tenant.id job → job.desiredVersion = some version → job.status = .planned →
      Q (approvePlan plan version now job,
      false) (.between (saved db (.job job.id) (approvePlan plan version now job)) up n))
    (hunderway : ∀ plan job, deploymentPlan cfg tenant (specOf cfg version) = .ok plan →
      SoleActive db tenant.id job → job.desiredVersion = some version → job.status ≠ .planned →
      Q (job, false) (.between db up n))
    (hother : ∀ plan job, deploymentPlan cfg tenant (specOf cfg version) = .ok plan →
      SoleActive db tenant.id job → job.desiredVersion ≠ some version →
      E (otherTarget job version) (.between db up n)) :
    serial schema (requestDeployment cfg slug version cfg.provisionerApiImage
      cfg.provisionerWorkerImage actor) (.between db up n) Q E := by
  simp only [requestDeployment, serial_bind]
  refine serial_knownTenant htenant fun clock => ?_
  rw [show (summary cfg db clock tenant).tenant = tenant from rfl]
  simp only [serial_ensure, serial_fresh, serial_require,
    hdeployable.canProvision, hdeployable.notSuspended, hdeployable.notParked, ne_eq, not_false_eq_true,
    not_true_eq_false, forall_const, false_imp_iff, and_true, serial_inTransaction,
    serial_bind, serial_sqlNow]
  intro id hid
  refine ⟨fun plan hplan now => ?_, fun e he => hunplanned e he⟩
  refine serial_insert_newJob horderly hid rfl (by simp) (fun hrest => ?_) fun job hsole => ?_
  · rw [if_pos rfl, serial_pure, View.between_put]
    exact hidle plan id now hplan hrest hid
  rw [if_neg (by simp), serial_bind]
  refine serial_activeProvisioningJob hsole fun engaged => ?_
  simp only [serial_bind, serial_okOr, serial_ensure, some.injEq]
  refine ⟨fun found hfound => ?_, by simp⟩
  subst hfound
  refine ⟨fun hversion => ?_, hother plan job hplan hsole⟩
  split_ifs with hstatus
  · rw [serial_bind]
    refine serial_updateRow (fun hmiss => ?_) fun row hrow _ => ?_
    · have hmissed := hmiss job (by rw [seen_between]; exact hsole.stored)
      simp [hstatus] at hmissed
    · rw [seen_between, hsole.stored, some.injEq] at hrow
      subst hrow
      simp only [serial_bind, serial_okOr, serial_pure, some.injEq]
      refine ⟨fun _ => ⟨fun new hnew => ?_, by simp⟩, fun e hverdict => ?_⟩
      · subst hnew
        exact hplanned plan now job hplan hsole hversion hstatus
      · rw [verdict_approvePlan hstatus (horderly.checked _ _ hsole.stored)] at hverdict
        cases hverdict
  · rw [serial_pure, seen_between]
    exact hunderway plan job hplan hsole hversion hstatus

def ApiError.fallsBack : ApiError → Prop
  | .invalidInput _ | .conflict _ => True
  | _ => False

variable {e : ApiError}

theorem deploymentVersion_error {value fallback : Option String}
    (herror : Validation.deploymentVersion value fallback = .error e) : e.fallsBack := by
  unfold Validation.deploymentVersion at herror
  split at herror
  · cases herror
    trivial
  · simp only at herror
    split_ifs at herror
    cases herror
    trivial

theorem deploymentPlan_error {spec : TenantDeploymentSpec}
    (herror : deploymentPlan cfg tenant spec = .error e) : e.fallsBack := by
  unfold deploymentPlan at herror
  cases hurl : tenant.crowdrelayBaseUrl with
  | none =>
    rw [hurl] at herror
    cases herror
    trivial
  | some url =>
    rw [hurl] at herror
    cases hstored : tenant.regionalProfile with
    | none =>
      rw [hstored] at herror
      cases herror
      trivial
    | some stored =>
      rw [hstored] at herror
      cases hprofile : RegionalProfile.ofJson stored with
      | none =>
        simp only [elim_some, bind, Except.bind, hprofile, elim_none] at herror
        cases herror
        trivial
      | some profile =>
        simp only [elim_some, bind, Except.bind, hprofile] at herror
        -- only a shared placement can be incomplete
        split at herror
        · exact nomatch herror
        · split at herror
          · exact nomatch herror
          · cases herror
            trivial

/-- The version a payment deploys can be made into a plan. -/
def DefaultPlan (cfg : Config) (tenant : TenantRow) (version : String) : Prop :=
  Validation.deploymentVersion none cfg.provisionerDefaultImageTag = .ok version ∧
    ∃ plan, deploymentPlan cfg tenant (specOf cfg version) = .ok plan

/-- The tenant has no active job, or one that a payment can take for its own: one without a version, or
with the version the payment itself deploys. -/
def Intends (cfg : Config) (db : AList Row) (tenant : TenantRow) : Prop :=
  ∀ job, SoleActive db tenant.id job → job.desiredVersion = none ∨
    ∃ version, DefaultPlan cfg tenant version ∧ job.desiredVersion = some version

theorem intends_saved_iff (hkey : ∀ id, Key.job id ≠ key) :
    Intends cfg (saved db key row) tenant ↔ Intends cfg db tenant := by
  simp only [Intends, soleActive_saved_iff hkey]

abbrev serialIntent (cfg : Config) (db : AList Row) (tenant : TenantRow) (v : View Row Upstream)
    (h : Handler α) : Prop :=
  serial schema h v (fun _ v' => Intends cfg db tenant ∧ ∃ job, SoleActive v'.committed tenant.id job)
    fun _ _ => ¬ Intends cfg db tenant

theorem serial_fallback (htenant : tenantRow db slug = some tenant)
    (horderly : Orderly db tenant.id n)
    (hundeployed : ∀ job version, SoleActive db tenant.id job → DefaultPlan cfg tenant version →
      job.desiredVersion ≠ some version) :
    serialIntent cfg db tenant (.between db up n)
      (planProvisioning cfg slug none none Routes.billingActor) := by
  refine serial_planProvisioning htenant horderly (fun id now hidle _ => ?_)
    (fun job hsole hnone => ?_) fun job hsole hpinned hintends => ?_
  · exact ⟨fun job hsole => absurd hidle hsole.not_idle, _, hidle.soleActive_saved (newJob_active rfl)⟩
  · refine ⟨fun job' hsole' => Or.inl ?_, job, hsole⟩
    obtain rfl := hsole.eq hsole'
    exact hnone
  · rcases hintends job hsole with hnone | ⟨version, hplan, hsame⟩
    · exact hpinned hnone
    · exact hundeployed job version hsole hplan hsame

theorem serial_provisionOnPayment_iff (htenant : tenantRow db slug = some tenant)
    (hdeployable : Deployable tenant) (horderly : Orderly db tenant.id n) :
    serialIntent cfg db tenant (.between db up n) (Routes.provisionOnPayment cfg slug) := by
  simp only [serialIntent, Routes.provisionOnPayment, serial_bind, serial_attempt, serial_require]
  -- whatever kept the payment from deploying, it goes on to plan
  have hplans (hundeployed : ∀ job version, SoleActive db tenant.id job →
      DefaultPlan cfg tenant version → job.desiredVersion ≠ some version) :
      serialIntent cfg db tenant (.between db up n) (do
        let _ ← Store.planProvisioning cfg slug none none Routes.billingActor) := by
    simp only [serialIntent, serial_bind, serial_pure]
    exact serial_fallback htenant horderly hundeployed
  refine ⟨fun version hversion => ?_, fun e herror => ?_⟩
  · refine serial_requestDeployment htenant hdeployable horderly (fun e he => ?_)
      (fun plan id now _ hidle _ => ?_) (fun plan now job hplan hsole hsame hstatus => ?_)
      (fun plan job hplan hsole hsame _ => ?_) fun plan job hplan hsole hother => ?_
    · have hfalls := deploymentPlan_error he
      have hintent := hplans fun job version' _ hdefault _ => by
        obtain ⟨hversion', plan, hplan⟩ := hdefault
        rw [hversion, Except.ok.injEq] at hversion'
        subst hversion'
        cases hplan.symm.trans he
      cases e with
      | invalidInput | conflict => exact hintent
      | _ => exact hfalls.elim
    · simp only [serial_pure]
      exact ⟨fun job hsole => absurd hidle hsole.not_idle, _, hidle.soleActive_saved (newJob_active rfl)⟩
    · simp only [serial_pure]
      refine ⟨fun job' hsole' => Or.inr ⟨version, ⟨hversion, plan, hplan⟩, ?_⟩, _,
        hsole.updated rfl (approvePlan_active hsole.active)⟩
      obtain rfl := hsole.eq hsole'
      exact hsame
    · simp only [serial_pure]
      refine ⟨fun job' hsole' => Or.inr ⟨version, ⟨hversion, plan, hplan⟩, ?_⟩, job, hsole⟩
      obtain rfl := hsole.eq hsole'
      exact hsame
    · refine hplans fun job' version' hsole' hdefault hsame => ?_
      obtain rfl := hsole.eq hsole'
      have hversion' := hdefault.1
      rw [hversion, Except.ok.injEq] at hversion'
      subst hversion'
      exact hother hsame
  · have hfalls := deploymentVersion_error herror
    have hintent := hplans fun job version _ hdefault _ => by
      cases hdefault.1.symm.trans herror
    cases e with
    | invalidInput | conflict => exact hintent
    | _ => exact hfalls.elim

/-- The guarantee can be anchored anew: no count of fans is negative, as no report with one is
accepted. -/
structure Anchorable (db : AList Row) (tenantId : Uuid) : Prop where
  checked : ∀ row : TenantGuaranteeRow, db.lookup (.guarantee tenantId) = some row →
    guaranteeCheck row = true
  fans : ∀ row : RuntimeStatusRow, db.lookup (.runtime tenantId) = some row →
    nonNegative row.northStarFans = true

theorem Anchorable.anchored (hanchorable : Anchorable db tenantId) {row : TenantGuaranteeRow}
    {startedAt : Instant} (hrow : db.lookup (.guarantee tenantId) = some row) :
    guaranteeCheck (anchored startedAt ((runtimeRow db tenantId).bind (·.northStarFans)) row) = true := by
  have hchecked := hanchorable.checked row hrow
  simp only [guaranteeCheck, Bool.and_eq_true, decide_eq_true_eq] at hchecked
  have hbaseline : 0 ≤ ((runtimeRow db tenantId).bind (·.northStarFans)).getD row.baselineValue := by
    cases hruntime : runtimeRow db tenantId with
    | none => exact hchecked.2
    | some runtime =>
      have hfans := hanchorable.fans runtime hruntime
      cases hcount : runtime.northStarFans with
      | none => simpa [hcount] using hchecked.2
      | some fans =>
        simpa [nonNegative, hcount] using hfans
  simp only [guaranteeCheck, Store.anchored, Bool.and_eq_true]
  exact ⟨⟨hchecked.1.1, decide_eq_true hchecked.1.2⟩, decide_eq_true hbaseline⟩

/-- The webhook of a start is answered with success exactly if the provider has a name that can be
stored and the payment finds no job in its way. -/
theorem serial_start_iff {provided : String} {req : Routes.BillingWebhookRequest}
    (hsecret : cfg.billingWebhookSecret = some provided)
    (hevent : BillingEvent.parse req.event = some .subscriptionStarted)
    (hslug : Validation.slug req.tenantSlug = .ok slug) (htenant : tenantRow db slug = some tenant)
    (hstatus : tenant.status = .provisioning) (hprovision : tenant.canProvision = true)
    (hanchorable : Anchorable db tenant.id) (horderly : Orderly db tenant.id n) :
    serial schema (Routes.billingWebhook cfg provided req) (.between db up n)
      (fun _ v => (namesProvider (req.provider.getD "stripe") = true ∧ Intends cfg db tenant) ∧
        ∃ job, SoleActive v.committed tenant.id job)
      fun _ _ => ¬ (namesProvider (req.provider.getD "stripe") = true ∧ Intends cfg db tenant) := by
  have hdeployable : Deployable tenant :=
    ⟨hprovision, by rw [hstatus]; decide, by rw [hstatus]; decide⟩
  simp only [Routes.billingWebhook, serial_bind, serial_okOr, serial_ensure,
    hevent, serial_require, hslug, hsecret, some.injEq, forall_eq', reduceCtorEq,
    false_imp_iff, and_true, Except.ok.injEq, implies_true, not_true_eq_false, forall_const]
  refine serial_knownTenant htenant fun clock => ?_
  rw [show (summary cfg db clock tenant).tenant = tenant from rfl]
  refine serial_applyBillingEvent (fun hunnamed hboth => ?_) (fun utc hstate => ?_)
    fun hnamed utc now state _ previous => ?_
  · exact absurd (hunnamed.symm.trans hboth.1) (by simp)
  · simp [BillingState.apply] at hstate
  have hnotJob : ∀ id, Key.job id ≠ .billing tenant.id := fun id => by simp
  generalize hrow : billed tenant.id (req.input .subscriptionStarted) state utc now
    (billingRow db tenant.id) = row
  have horderly' : Orderly (saved db (.billing tenant.id) row) tenant.id n := horderly.saved hnotJob
  have htenant' : tenantRow (saved db (.billing tenant.id) row) slug = some tenant := by
    rw [tenantRow_saved_of_not_tenant (by simp)]
    exact htenant
  -- the guarantee is no obstacle, and the jobs are those there were
  have hintent : ∀ db' : AList Row, tenantRow db' slug = some tenant → Orderly db' tenant.id n →
      (Intends cfg db' tenant ↔ Intends cfg db tenant) →
      serial schema (whenever (tenant.status = .provisioning ∧ tenant.canProvision = true)
        (Routes.provisionOnPayment cfg slug)) (.between db' up n)
        (fun _ v => (namesProvider (req.provider.getD "stripe") = true ∧ Intends cfg db tenant) ∧
          ∃ job, SoleActive v.committed tenant.id job)
        fun _ _ => ¬ (namesProvider (req.provider.getD "stripe") = true ∧ Intends cfg db tenant) := by
    intro db' hfound horder hsame
    rw [serial_whenever]
    refine ⟨fun _ => ?_, fun hnot => absurd ⟨hstatus, hprovision⟩ hnot⟩
    refine serial_mono (fun _ v hok => ⟨⟨hnamed, hsame.mp hok.1⟩, hok.2⟩)
      (fun _ _ hfails hboth => hfails (hsame.mpr hboth.2))
      (serial_provisionOnPayment_iff hfound hdeployable horder)
  simp only [Routes.onSubscriptionStarted, serial_bind, serial_pure]
  refine serial_anchorGuarantee (fun guarantee hguarantee hunchecked => ?_) (fun _ => ?_)
    fun guarantee _ _ => ?_
  · rw [lookup_saved_of_ne _ _ (by simp)] at hguarantee
    rw [runtimeRow, lookup_saved_of_ne _ _ (by simp)] at hunchecked
    rw [show AList.lookup (.runtime tenant.id) db = runtimeRow db tenant.id from rfl,
      hanchorable.anchored hguarantee] at hunchecked
    exact absurd hunchecked (by simp)
  · exact hintent _ htenant' horderly' (intends_saved_iff hnotJob)
  · have hnotJob' : ∀ id, Key.job id ≠ .guarantee tenant.id := fun id => by simp
    refine hintent _ ?_ (horderly'.saved hnotJob')
      ((intends_saved_iff hnotJob').trans (intends_saved_iff hnotJob))
    rw [tenantRow_saved_of_not_tenant (by simp)]
    exact htenant'

section Reached

variable {s₀ s t : State} {answer : Except ApiError Reply}

/-- Identifiers are taken never to repeat: those still to come name no job. -/
def Unissued (s : State) : Prop := ∀ id, s.nextId ≤ id → s.committed.lookup (.job id) = none

theorem orderly_of_reaches (hboot : Booted cfg s₀) (hreach : Reaches (server cfg) anyStep s₀ s)
    (hunissued : Unissued s) (tenantId : Uuid) : Orderly s.committed tenantId s.nextId where
  unissued := hunissued
  keyed id row hrow := JobOk.keyed ((holds_of_reaches hboot hreach).inv (.job id) row hrow)
  checked id row hrow := jobCheck_of_jobOk ((holds_of_reaches hboot hreach).inv (.job id) row hrow)
  sole id id' row row' hrow hrow' hactive hactive' := by
    simp only [isActiveOf, Bool.and_eq_true, decide_eq_true_eq] at hactive hactive'
    exact atMostOne_active hboot hreach hrow hrow' hactive.2 hactive'.2
      (hactive.1.trans hactive'.1.symm)

theorem exists_serves (hboot : Booted cfg s₀) (hreach : Reaches (server cfg) anyStep s₀ s)
    (hquiet : Quiescent s.toShared) (call : Call) :
    ∃ answer t, Serves (server cfg) s call answer t := by
  obtain ⟨sid, hfree⟩ := hreach.exists_free hboot.atRest
  exact (holds_of_reaches hboot hreach).serves protocol_metBy hquiet hfree call

/-- The answer is the job, approved with the plan the agent can carry out and the version, and so is
what is stored. -/
def Approved (cfg : Config) (tenant : TenantRow) (job : ProvisioningJobRow) (version : String)
    (answer : Except ApiError Reply) (db : AList Row) : Prop :=
  ∃ plan now, deploymentPlan cfg tenant (specOf cfg version) = .ok plan ∧
    answer = .ok (.job (approvePlan plan version now job) false) ∧
    db.lookup (.job job.id) = some (approvePlan plan version now job)

theorem Orderly.soleActive (horderly : Orderly db tenantId n)
    (hstored : db.lookup (.job job.id) = some job) (hactive : isActiveOf tenantId job = true) :
    SoleActive db tenantId job :=
  ⟨hstored, hactive, fun id row hrow hrow' => horderly.sole id job.id row job hrow hstored hrow' hactive⟩

/-- **When a request completes a planned job.** In any state at rest that calls have led to, a valid
request for a deployment is answered if it runs alone; it approves the tenant's one planned job
exactly if the executable plan can be made and the job was pinned to that version before. -/
theorem planned_job_approved_iff (rawSlug actor : String) (desired : Option String) {version : String}
    (hboot : Booted cfg s₀) (hreach : Reaches (server cfg) anyStep s₀ s)
    (hquiet : Quiescent s.toShared) (hunissued : Unissued s)
    (hslug : Validation.slug rawSlug = .ok slug) (hconfigured : cfg.provisionerConfigured = true)
    (hversion : Validation.deploymentVersion desired cfg.provisionerDefaultImageTag = .ok version)
    (htenant : tenantRow s.committed slug = some tenant) (hdeployable : Deployable tenant)
    (hsole : SoleActive s.committed tenant.id job) (hplanned : job.status = .planned) :
    (∃ answer t, Serves (server cfg) s (.provision rawSlug desired actor) answer t) ∧
    ∀ answer t, Serves (server cfg) s (.provision rawSlug desired actor) answer t →
      (Approved cfg tenant job version answer t.committed ↔ job.desiredVersion = some version ∧
          ∃ plan, deploymentPlan cfg tenant (specOf cfg version) = .ok plan) := by
  refine ⟨exists_serves hboot hreach hquiet _, fun answer t hserves => ?_⟩
  refine (serves_post hserves (Q := fun answer db _ => Approved cfg tenant job version answer db ↔
    job.desiredVersion = some version ∧
      ∃ plan, deploymentPlan cfg tenant (specOf cfg version) = .ok plan) hquiet le_rfl ?_).2
  rw [handle, serial_map]
  simp only [Routes.provisionTenant, serial_bind, serial_require, hslug,
    serial_ensure, hconfigured, hversion, Except.ok.injEq, forall_eq', reduceCtorEq,
    false_imp_iff, implies_true, and_true, not_true_eq_false, forall_const]
  have hrefused : ∀ e db, (Approved cfg tenant job version (.error e) db ↔ False) := by
    simp [Approved]
  refine serial_requestDeployment htenant hdeployable
    (orderly_of_reaches hboot hreach hunissued tenant.id) (fun e he => ?_)
    (fun plan id now _ hidle _ => absurd hidle hsole.not_idle)
    (fun plan now job' hplan hsole' hsame _ => ?_) (fun plan job' _ hsole' _ hstatus => ?_)
    fun plan job' _ hsole' hother => ?_
  · rw [hrefused, false_iff]
    rintro ⟨-, plan, hplan⟩
    cases hplan.symm.trans he
  · obtain rfl := hsole.eq hsole'
    exact iff_of_true ⟨plan, now, hplan, rfl, lookup_saved_self ..⟩ ⟨hsame, plan, hplan⟩
  · obtain rfl := hsole.eq hsole'
    exact absurd hplanned hstatus
  · obtain rfl := hsole.eq hsole'
    rw [hrefused, false_iff]
    rintro ⟨hsame, -⟩
    exact hother hsame

theorem booted_of_jobs {s s' : State} (hboot : Booted cfg s) (hrest : s'.AtRest)
    (hsame : ∀ id, s'.committed.lookup (.job id) = s.committed.lookup (.job id)) : Booted cfg s' where
  atRest := hrest
  jobs id row hrow := hboot.jobs id row (by rw [← hsame]; exact hrow)
  oneActive id id' row row' hrow hrow' :=
    hboot.oneActive id id' row row' (by rw [← hsame]; exact hrow) (by rw [← hsame]; exact hrow')

def paidTenant : TenantRow := { demoTenant with status := .provisioning }

def paidState : State :=
  { demoState with
    committed := (AList.singleton (.tenant 1) paidTenant : AList Row).insert (.job 2) demoJob }

theorem paid_jobs (id : Uuid) :
    paidState.committed.lookup (.job id) = demoState.committed.lookup (.job id) := by
  by_cases hid : id = 2
  · subst hid
    rfl
  · have hne : Key.job id ≠ .job 2 := by simpa using hid
    simp only [paidState, demoState, AList.lookup_insert_ne hne]
    simp [AList.lookup, AList.singleton, List.dlookup]

theorem paid_booted (cfg : Config) : Booted cfg paidState :=
  booted_of_jobs (demo_booted cfg) ⟨fun _ => rfl, fun _ => rfl, fun _ => rfl⟩ paid_jobs

def untaggedConfig : Config := { demoConfig with provisionerDefaultImageTag := none }

def demoVersion : String := "sha-0123456789012345678901234567890123456789"

def unissuedKeys (s : State) : Bool :=
  s.committed.keys.all fun key =>
    match key with
    | .job id => id < s.nextId
    | _ => true

theorem unissued_of_keys (hkeys : unissuedKeys s = true) : Unissued s := by
  intro id hid
  by_contra hsome
  have hmem : Key.job id ∈ s.committed.keys :=
    AList.mem_keys.mp (AList.lookup_isSome.mp (isSome_iff_ne_none.mpr hsome))
  have hlt : id < s.nextId := by simpa using List.all_eq_true.mp hkeys _ hmem
  exact absurd hlt (Nat.not_lt.mpr hid)

def demoJobAfter (cfg : Config) (s : State) (calls : List (Call × Nat)) (id : Uuid) :
    Option (State × ProvisioningJobRow) := do
  let (_, t) ← serveAll (server cfg) (fun _ _ answer => answer.isOk) [] s calls
  let row : ProvisioningJobRow ← t.committed.lookup (.job id)
  if unissuedKeys t ∧ isActiveOf 1 row then some (t, row) else none

theorem demoJobAfter_eq_some {calls : List (Call × Nat)} {id : Uuid} (hboot : Booted cfg s)
    (hafter : demoJobAfter cfg s calls id = some (t, job)) :
    Reaches (server cfg) anyStep s t ∧ Quiescent t.toShared ∧ Unissued t ∧
      SoleActive t.committed 1 job := by
  simp only [demoJobAfter, bind_eq_bind, bind_eq_some_iff] at hafter
  obtain ⟨⟨served, t'⟩, hserve, row, hrow, hif⟩ := hafter
  obtain ⟨⟨hkeys, hactive⟩, heq⟩ := ite_none_right_eq_some.mp hif
  cases heq
  obtain ⟨hseq, -⟩ := sequence_of_serveAll .nil hserve
  have hreach := hseq.reaches
  have hunissued := unissued_of_keys hkeys
  have horderly := orderly_of_reaches hboot hreach hunissued 1
  obtain rfl := horderly.keyed id job hrow
  exact ⟨hreach, quiescent_of_sequence (quiescent_of_booted hboot) hseq, hunissued,
    horderly.soleActive hrow hactive⟩

theorem planned_job_approved_iff_pinned :
    ∃ (s : State) (job : ProvisioningJobRow),
      SoleActive s.committed 1 job ∧ job.status = .planned ∧ job.desiredVersion = some demoVersion ∧
      ∃ answer t, Serves (server demoConfig) s (.provision "acme" none "operator") answer t ∧
        Approved demoConfig demoTenant job demoVersion answer t.committed := by
  have hrun : (demoJobAfter demoConfig demoState [(.plan "acme" none none "operator", 9)] 100).map
      (fun after => (after.2.status, after.2.desiredVersion, tenantRow after.1.committed "acme")) =
      some (.planned, some demoVersion, some demoTenant) := by
    rfl
  obtain ⟨⟨s, job⟩, hafter, hjob⟩ := map_eq_some_iff.mp hrun
  simp only [Prod.mk.injEq] at hjob
  obtain ⟨hstatus, hdesired, htenant⟩ := hjob
  obtain ⟨hreach, hquiet, hunissued, hsole⟩ := demoJobAfter_eq_some (demo_booted _) hafter
  obtain ⟨⟨answer, t, hserves⟩, hiff⟩ := planned_job_approved_iff "acme" "operator" none
    (demo_booted demoConfig) hreach hquiet hunissued
    (show Validation.slug "acme" = .ok "acme" by decide) rfl
    (show Validation.deploymentVersion none _ = .ok demoVersion by decide) htenant
    ⟨rfl, by decide, by decide⟩ hsole hstatus
  exact ⟨s, job, hsole, hstatus, hdesired, answer, t, hserves,
    (hiff answer t hserves).mpr ⟨hdesired, _, rfl⟩⟩

def demoAnswer (cfg : Config) (s : State) (sid steps : Nat) (call : Call) :
    Option (Except ApiError Reply × State) := do
  let t ← runSchedule (server cfg) s (alone sid call steps)
  let answer ← t.returned sid
  some (answer, t)

theorem serves_of_demoAnswer {sid steps : Nat} {call : Call}
    (hanswer : demoAnswer cfg s sid steps call = some (answer, t)) :
    Serves (server cfg) s call answer t := by
  simp only [demoAnswer, bind_eq_bind, bind_eq_some_iff, some.injEq,
    Prod.mk.injEq] at hanswer
  obtain ⟨t', hrun, answer', hreturned, rfl, rfl⟩ := hanswer
  exact serves_of_alone hrun hreturned

def conflictIn : Except ApiError Reply → Option String
  | .error (.conflict message) => some message
  | _ => none

theorem conflictIn_eq_some {message : String} (hconflict : conflictIn answer = some message) :
    answer = .error (.conflict message) := by
  unfold conflictIn at hconflict
  split at hconflict
  · rw [some.inj hconflict]
  · exact absurd hconflict (by simp)

/-- A start delivered while no image is deployed by default leaves a planned job without a version,
because of which the request for a version is refused. -/
theorem unpinned_plan_conflicts :
    ∃ (s t : State) (job : ProvisioningJobRow) (message : String),
      Reaches (server untaggedConfig) anyStep paidState s ∧ Quiescent s.toShared ∧
      tenantRow s.committed "acme" = some paidTenant ∧ Deployable paidTenant ∧
      paidTenant.crowdrelayBaseUrl.isSome = true ∧ paidTenant.regionalProfile.isSome = true ∧
      SoleActive s.committed 1 job ∧ job.status = .planned ∧ job.desiredVersion = none ∧
      Serves (server untaggedConfig) s (.provision "acme" (some demoVersion) "operator")
        (.error (.conflict message)) t ∧
      jobStatus t job.id = some .planned := by
  have hrun : ((demoJobAfter untaggedConfig paidState [(demoStart "sub_1" 5, 18)] 100).bind fun after =>
      (demoAnswer untaggedConfig after.1 1 9 (.provision "acme" (some demoVersion) "operator")).map
        fun answered => ((tenantRow after.1.committed "acme", after.2.status, after.2.desiredVersion),
          (conflictIn answered.1).isSome, jobStatus answered.2 after.2.id)) =
      some ((some paidTenant, .planned, none), true, some .planned) := by
    rfl
  obtain ⟨⟨s, job⟩, hafter, hrest⟩ := bind_eq_some_iff.mp hrun
  obtain ⟨⟨answer, t⟩, hanswer, hfacts⟩ := map_eq_some_iff.mp hrest
  simp only [Prod.mk.injEq] at hfacts
  obtain ⟨⟨htenant, hstatus, hdesired⟩, hconflict, hleft⟩ := hfacts
  obtain ⟨message, hmessage⟩ := isSome_iff_exists.mp hconflict
  obtain ⟨hreach, hquiet, -, hsole⟩ := demoJobAfter_eq_some (paid_booted _) hafter
  have hserves := serves_of_demoAnswer hanswer
  rw [conflictIn_eq_some hmessage] at hserves
  exact ⟨s, t, job, message, hreach, hquiet, htenant, ⟨rfl, by decide, by decide⟩, rfl, rfl, hsole,
    hstatus, hdesired, hserves, hleft⟩

/-- **When a payment leaves its intent.** In any state at rest that calls have led to, the webhook
of a start is answered if it runs alone: with success and exactly one active job if and only if the
provider's name fits its column and no active job is pinned to another version than the one a
payment deploys, or to any if it deploys none. -/
theorem payment_leaves_intent_iff (provided : String) (req : Routes.BillingWebhookRequest)
    (hboot : Booted cfg s₀) (hreach : Reaches (server cfg) anyStep s₀ s)
    (hquiet : Quiescent s.toShared) (hunissued : Unissued s)
    (hsecret : cfg.billingWebhookSecret = some provided) (hevent : req.event = "subscription_started")
    (hslug : Validation.slug req.tenantSlug = .ok slug)
    (htenant : tenantRow s.committed slug = some tenant) (hstatus : tenant.status = .provisioning)
    (hprovision : tenant.canProvision = true) (hanchorable : Anchorable s.committed tenant.id) :
    (∃ answer t, Serves (server cfg) s (.webhook provided req) answer t) ∧
    ∀ answer t, Serves (server cfg) s (.webhook provided req) answer t →
      ((answer.isOk = true ∧ ∃ job, SoleActive t.committed tenant.id job) ↔
        namesProvider (req.provider.getD "stripe") = true ∧ Intends cfg s.committed tenant) := by
  refine ⟨exists_serves hboot hreach hquiet _, fun answer t hserves => ?_⟩
  have hparsed : BillingEvent.parse req.event = some .subscriptionStarted := by
    rw [hevent]
    decide
  refine (serves_post hserves (Q := fun answer db _ =>
    (answer.isOk = true ∧ ∃ job, SoleActive db tenant.id job) ↔
      namesProvider (req.provider.getD "stripe") = true ∧ Intends cfg s.committed tenant)
    hquiet le_rfl ?_).2
  rw [handle, serial_map]
  refine serial_mono (fun _ v hok => ?_) (fun e v hfails => ?_)
    (serial_start_iff hsecret hparsed hslug htenant hstatus hprovision hanchorable
      (orderly_of_reaches hboot hreach hunissued tenant.id))
  · exact iff_of_true ⟨rfl, hok.2⟩ hok.1
  · exact iff_of_false (fun hok => Bool.noConfusion hok.1) hfails

theorem paid_anchorable : Anchorable paidState.committed 1 :=
  have hguarantee : paidState.committed.lookup (.guarantee 1) = none := rfl
  have hruntime : paidState.committed.lookup (.runtime 1) = none := rfl
  ⟨fun _ hrow => (nomatch hguarantee.symm.trans hrow),
    fun _ hrow => (nomatch hruntime.symm.trans hrow)⟩

theorem payment_leaves_intent_iff_first :
    ∃ answer t, Serves (server demoConfig) paidState (demoStart "sub_1" 5) answer t ∧
      answer.isOk = true ∧ ∃ job, SoleActive t.committed 1 job := by
  have hidle : ∀ job, ¬ SoleActive paidState.committed 1 job := by
    intro job hsole
    have hjob : demoState.committed.lookup (.job job.id) = some job := by
      exact hsole.stored
    obtain ⟨-, rfl⟩ := demo_jobs hjob
    exact absurd hsole.active (by decide)
  obtain ⟨⟨answer, t, hserves⟩, hiff⟩ := payment_leaves_intent_iff "secret"
    ⟨"acme", "subscription_started", none, none, some "sub_1", some 5, none, none⟩
    (paid_booted demoConfig) (.refl _) ⟨fun _ => rfl, fun _ => rfl⟩
    (unissued_of_keys (by decide)) rfl rfl
    (show Validation.slug "acme" = .ok "acme" by decide)
    (show tenantRow paidState.committed "acme" = some paidTenant from rfl) rfl rfl
    paid_anchorable
  obtain ⟨hok, hsole⟩ := (hiff answer t hserves).mpr
    ⟨by decide, fun job hjob => absurd hjob (hidle job)⟩
  exact ⟨answer, t, hserves, hok, hsole⟩

def otherDemoVersion : String := "sha-9876543210987654321098765432109876543210"

/-- A job that was approved for another version than the default one refuses the payment. -/
theorem payment_refused_by_other_version :
    ∃ (s t : State) (job : ProvisioningJobRow) (message : String),
      Reaches (server demoConfig) anyStep paidState s ∧ Quiescent s.toShared ∧
      tenantRow s.committed "acme" = some paidTenant ∧ paidTenant.status = .provisioning ∧
      paidTenant.canProvision = true ∧ SoleActive s.committed 1 job ∧ job.status = .approved ∧
      job.desiredVersion = some otherDemoVersion ∧
      Serves (server demoConfig) s (demoStart "sub_1" 5) (.error (.conflict message)) t := by
  have hrun : ((demoJobAfter demoConfig paidState
      [(.provision "acme" (some otherDemoVersion) "operator", 7)] 100).bind fun after =>
      (demoAnswer demoConfig after.1 1 29 (demoStart "sub_1" 5)).map
        fun answered => ((tenantRow after.1.committed "acme", after.2.status, after.2.desiredVersion),
          (conflictIn answered.1).isSome)) =
      some ((some paidTenant, .approved, some otherDemoVersion), true) := by
    rfl
  obtain ⟨⟨s, job⟩, hafter, hrest⟩ := bind_eq_some_iff.mp hrun
  obtain ⟨⟨answer, t⟩, hanswer, hfacts⟩ := map_eq_some_iff.mp hrest
  simp only [Prod.mk.injEq] at hfacts
  obtain ⟨⟨htenant, hstatus, hdesired⟩, hconflict⟩ := hfacts
  obtain ⟨message, hmessage⟩ := isSome_iff_exists.mp hconflict
  obtain ⟨hreach, hquiet, -, hsole⟩ := demoJobAfter_eq_some (paid_booted _) hafter
  have hserves := serves_of_demoAnswer hanswer
  rw [conflictIn_eq_some hmessage] at hserves
  exact ⟨s, t, job, message, hreach, hquiet, htenant, rfl, rfl, hsole, hstatus, hdesired, hserves⟩

end Reached

end ControlPlane
