import ControlPlane.Proof.Alone
import ControlPlane.ReadCommitted.Script

/-!
# Handlers under a script

What the handlers spare, and how the parts the scripts share are followed.
-/

namespace ControlPlane

open ReadCommitted ReadCommitted.Handler Store

variable {cfg : Config}

variable {db : AList Row} {slug : String} {tenant : TenantRow}

theorem tenantRow_eq_some (htenant : tenantRow db slug = some tenant) :
    (∃ id, db.lookup (.tenant id) = some tenant) ∧ tenant.slug = slug := by
  have hslug : tenant.slug = slug := by
    have := List.find?_some htenant
    simpa using this
  have hmem : tenant ∈ tenantsOf db := List.mem_of_find?_eq_some htenant
  obtain ⟨key, -, hkey⟩ := List.mem_filterMap.mp hmem
  cases key with
  | tenant id => exact ⟨⟨id, hkey⟩, hslug⟩
  | _ => simp at hkey

/-- The slug names one tenant, stored under its id. -/
def Named (slug : String) (tenantId : Uuid) (db : AList Row) : Prop :=
  ∀ (id : Uuid) (row : TenantRow), db.lookup (.tenant id) = some row → row.slug = slug →
    id = tenantId ∧ row.id = tenantId

variable {tenantId : Uuid}

theorem Named.found (hnamed : Named slug tenantId db) (htenant : tenantRow db slug = some tenant) :
    db.lookup (.tenant tenantId) = some tenant ∧ tenant.id = tenantId := by
  obtain ⟨⟨id, hrow⟩, hslug⟩ := tenantRow_eq_some htenant
  obtain ⟨rfl, hid⟩ := hnamed id tenant hrow hslug
  exact ⟨hrow, hid⟩

theorem Named.id_eq (hnamed : Named slug tenantId db) (htenant : tenantRow db slug = some tenant) :
    tenant.id = tenantId := (hnamed.found htenant).2

theorem Named.congr {db' : AList Row} (hnamed : Named slug tenantId db)
    (hsame : ∀ id : Uuid, db'.lookup (.tenant id) = db.lookup (.tenant id)) :
    Named slug tenantId db' :=
  fun id row hrow => hnamed id row (by rw [← hsame, hrow])

theorem demo_named : Named "acme" 1 demoState.committed := by
  intro id row hrow _
  rw [demoState, AList.lookup_insert_ne (by simp)] at hrow
  by_cases hid : id = 1
  · subst hid
    obtain rfl : demoTenant = row := by
      simpa [AList.lookup, AList.singleton, List.dlookup] using hrow
    exact ⟨rfl, rfl⟩
  · have hne : (1 : Uuid) ≠ id := fun heq => hid heq.symm
    simp [AList.lookup, AList.singleton, List.dlookup, hne] at hrow

theorem ok_of_isOk {answer : Option (Except ApiError Reply)}
    (hok : answer.map Except.isOk = some true) : ∃ reply, answer = some (.ok reply) := by
  obtain ⟨value, rfl, hvalue⟩ := Option.map_eq_some_iff.mp hok
  cases value with
  | ok reply => exact ⟨reply, rfl⟩
  | error e => cases hvalue

variable {K : Key → Prop} {ends : Bool}

theorem spares_activeProvisioningJob (tenantId : Uuid) :
    Spares K ends (activeProvisioningJob tenantId) :=
  .bind .snapshot fun _ => .bind (.firstLocked _) fun _ => .pure _

theorem spares_tenantBySlug (slug : String) : Spares K ends (tenantBySlug cfg slug) :=
  .bind .snapshot fun _ => .bind (.okOr _ _) fun _ => .bind .utcNow fun _ => .pure _

theorem spares_planProvisioning (slug : String) (version : Option String) (keys : Option Json)
    (actor : String) :
    Spares (fun key => ¬ key.isJob) true (planProvisioning cfg slug version keys actor) := by
  refine .bind (spares_tenantBySlug slug) fun _ => .bind .fresh fun _ =>
    .inTransaction (.bind .sqlNow fun _ => .bind (.insert (by simp [Key.isJob])) fun inserted => ?_)
  split_ifs
  · exact .pure _
  · exact .bind (spares_activeProvisioningJob _) fun _ => .bind (.okOr _ _) fun _ =>
      .bind (.ensure _) fun _ => .pure _

theorem spares_requestDeployment (slug version api worker actor : String) :
    Spares (fun key => ¬ key.isJob) true
      (requestDeployment cfg slug version api worker actor) := by
  refine .bind (spares_tenantBySlug slug) fun _ => .bind (.ensure _) fun _ =>
    .bind (.ensure _) fun _ => .bind (.ensure _) fun _ => .bind .fresh fun _ =>
    .bind (.require _) fun _ => .inTransaction (.bind .sqlNow fun _ =>
      .bind (.insert (by simp [Key.isJob])) fun inserted => ?_)
  split_ifs
  · exact .pure _
  · refine .bind (spares_activeProvisioningJob _) fun _ => .bind (.okOr _ _) fun existing =>
      .bind (.ensure _) fun _ => ?_
    split_ifs
    · exact .bind (.updateRow (by simp [Key.isJob])) fun _ => .bind (.okOr _ _) fun _ => .pure _
    · exact .pure _

theorem spares_provisionOnPayment (slug : String) :
    Spares (fun key => ¬ key.isJob) true (Routes.provisionOnPayment cfg slug) := by
  refine .bind (.attempt (.bind (.require _) fun _ =>
    .bind (spares_requestDeployment _ _ _ _ _) fun _ => .pure _)) fun requested => ?_
  match requested with
  | .ok () => exact .pure _
  | .error e =>
    cases e with
    | invalidInput _ | conflict _ =>
      exact .bind (spares_planProvisioning _ _ _ _) fun _ => .pure _
    | _ => exact .throw _

theorem spares_enqueueEach (hK : ∀ id, ¬ K (.outbox id)) (event : NotifierEvent) (payload : Json)
    (now : Instant) (channels : List NotifierChannelRow) :
    Spares K false (enqueueEach event payload now channels) := by
  induction channels with
  | nil => exact .pure _
  | cons channel rest ih =>
    exact .bind .fresh fun id => .bind (.insert (hK id)) fun _ => .bind (.ensure _) fun _ => ih

theorem spares_enqueueEventTx (hK : ∀ id, ¬ K (.outbox id)) (tenantId : Uuid)
    (event : NotifierEvent) (payload : Json) :
    Spares K false (enqueueEventTx tenantId event payload) :=
  .bind .sqlNow fun _ => .bind .snapshot fun _ => spares_enqueueEach hK event payload _ _

theorem spares_raiseOutreachAlerts (hK : ∀ id, ¬ K (.outbox id))
    (hK' : ∀ id, ¬ K (.outreachAlert id)) (tenantId : Uuid) (input : RuntimeReportRequest)
    (now : Instant) : Spares K false (raiseOutreachAlerts tenantId input now) := by
  unfold raiseOutreachAlerts
  split_ifs
  · exact .pure _
  · refine .bind (.lock _) fun _ => .bind (.upsert (hK' _)) fun _ => ?_
    refine .bind (.whenever (spares_enqueueEventTx hK _ _ _)) fun _ => ?_
    refine .bind (.forSome fun _ => .whenever (spares_enqueueEventTx hK _ _ _)) fun _ => ?_
    exact .forSome fun _ => .whenever (spares_enqueueEventTx hK _ _ _)

section Lookup

variable {G : Type} {T : Script Row ManagementRequest Upstream G} {K : Key → Prop}
  {w : AList Row} {g : G}

theorem follows_tenantBySlug {slug : String} {Q : TenantSummary → AList Row → G → Prop}
    {E : ApiError → AList Row → G → Prop} (hpasses : T.PassesAt schema K g)
    (hmissing : E .notFound w g)
    (hfound : ∀ c tenant now, T.known g c → c.writes = w → tenantRow c.seen slug = some tenant →
      Q (summary cfg c.seen now tenant) w g) :
    Follows schema T (tenantBySlug cfg slug) w g Q E := by
  refine .bind (.snapshot hpasses fun c hknown hwrites => ?_)
  refine .bind (.okOr (fun tenant htenant => ?_) fun _ => hmissing)
  refine .bind (.utcNow hpasses fun now => ?_)
  exact .pure (hfound c tenant now hknown hwrites htenant)

end Lookup

end ControlPlane
