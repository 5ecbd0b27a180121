import ControlPlane.Proof.Parking
import ControlPlane.Proof.Scripts

/-!
# Lifecycle requests under a script

How any script about a tenant's row and its park snapshot follows the parts of the lifecycle routes.
-/

namespace ControlPlane

open ReadCommitted ReadCommitted.Handler Store AList

def lifecycleRow : Key → Prop
  | .tenant _ | .parkSnapshot _ => True
  | _ => False

variable {c : Scene Row Upstream} {key : Key} {row : Row key}

theorem lookup_committing_insert {other : Key} (hwrites : c.writes = insert key row ∅)
    (hne : other ≠ key) : c.committing.committed.lookup other = c.committed.lookup other := by
  rw [Scene.lookup_committing, hwrites, lookup_insert_ne hne]
  rfl

theorem lookup_committing_self (hwrites : c.writes = insert key row ∅) :
    c.committing.committed.lookup key = some row := by
  rw [Scene.lookup_committing, hwrites, lookup_insert, Option.some_or]

theorem Named.commit {slug : String} {tenantId : Uuid} {row : TenantRow}
    (hnamed : Named slug tenantId c.committed) (hid : row.id = tenantId)
    (hwrites : c.writes = insert (.tenant tenantId) row ∅) :
    Named slug tenantId c.committing.committed := by
  intro id found hfound hslug
  by_cases heq : id = tenantId
  · subst heq
    rw [lookup_committing_self hwrites, Option.some.injEq] at hfound
    exact ⟨rfl, hfound ▸ hid⟩
  · rw [lookup_committing_insert hwrites (by simpa using heq)] at hfound
    exact hnamed id found hfound hslug

section Follows

variable {G : Type} {T : Script Row ManagementRequest Upstream G} {calm : G → Prop} {cfg : Config}
  {slug : String} {tenantId : Uuid} {w : AList Row} {g : G}

theorem lookup_seen_of_empty {c : Scene Row Upstream} (hwrites : c.writes = ∅) (key : Key) :
    c.seen.lookup key = c.committed.lookup key := by
  rw [Scene.lookup_seen, hwrites]
  rfl

theorem Named.seen {c : Scene Row Upstream} (hnamed : Named slug tenantId c.committed)
    (hwrites : c.writes = ∅) : Named slug tenantId c.seen :=
  hnamed.congr fun id => lookup_seen_of_empty hwrites (.tenant id)

variable {E : ApiError → AList Row → G → Prop}

theorem follows_requestManagement {context : String} {req : ManagementRequest}
    {Q : Json → AList Row → G → Prop}
    (hserved : ∀ c answer upstream', T.known g c → c.writes = w →
      Served schema req c.upstream answer upstream' → ∃ g',
      T.move g (.request req) c g' { c with upstream := upstream' } ∧
      (∀ document, answer = .ok document → Q document w g') ∧ ∀ e, E e w g') :
    Follows schema T (Routes.requestManagement context req) w g Q E := by
  refine .bind (.request fun c answer up' hknown hwrites hserve => ?_)
  obtain ⟨g', hmove, hQ, hE⟩ := hserved c answer up' hknown hwrites hserve
  exact ⟨g', hmove, .mapErr (.require hQ fun e _ => hE _)⟩

section Lookup

variable {K : Key → Prop} (hpasses : T.PassesAt schema K g)
  (hnamed : ∀ c, T.known g c → Named slug tenantId c.committed)
include hpasses hnamed

variable {E : ApiError → AList Row → G → Prop}

theorem follows_findTenant {Q : TenantSummary → AList Row → G → Prop} (hE : ∀ e, E e ∅ g)
    (hQ : ∀ c (tenant : TenantRow) (found : TenantSummary), T.known g c →
      c.committed.lookup (.tenant tenantId) = some tenant → tenant.id = tenantId →
      found.tenant = tenant → Q found ∅ g) :
    Follows schema T (tenantBySlug cfg slug) ∅ g Q E := by
  refine follows_tenantBySlug hpasses (hE _) fun c tenant now hknown hwrites htenant => ?_
  obtain ⟨hrow, hid⟩ := ((hnamed c hknown).seen hwrites).found htenant
  rw [lookup_seen_of_empty hwrites] at hrow
  exact hQ c tenant _ hknown hrow hid rfl

theorem follows_target {Q : TenantSummary × String → AList Row → G → Prop} (hE : ∀ e, E e ∅ g)
    (hQ : ∀ (found : TenantSummary) (url : String), found.tenant.id = tenantId → Q (found, url) ∅ g) :
    Follows schema T (Routes.target cfg slug) ∅ g Q E := by
  refine .bind (follows_findTenant hpasses hnamed hE fun _ tenant found _ _ hid hfound => ?_)
  refine .bind (.ensure (fun _ => ?_) fun _ => hE _)
  refine .bind (.ensure (fun _ => ?_) fun _ => hE _)
  refine .bind (.bind (.snapshot hpasses fun _ _ _ => .pure ?_))
  refine .bind (.okOr (fun url _ => ?_) fun _ => hE _)
  exact .pure (hQ found url (by rw [hfound, hid]))

theorem follows_updateTenant {set : TenantRow → TenantRow}
    {Q : Option TenantRow → AList Row → G → Prop} (hnone : Q none ∅ g)
    (hsome : ∀ row : TenantRow, row.id = tenantId → row.slug = slug →
      Follows schema T (Handler.write (.tenant tenantId) (set row)) ∅ g (fun _ w' g' =>
      Q (some (set row)) w' g') E) :
    Follows schema T (updateTenant slug set) ∅ g Q E := by
  refine .bind (.snapshot hpasses fun c hknown hwrites => ?_)
  cases htenant : tenantRow c.seen slug with
  | none => exact .pure hnone
  | some tenant =>
    obtain rfl := ((hnamed c hknown).seen hwrites).id_eq htenant
    refine .updateRow hpasses (fun _ _ _ _ => hnone)
      fun c' _ row hknown' hwrites' hrow hqualifies => ?_
    have hslug : row.slug = slug := by simpa using hqualifies
    rw [lookup_seen_of_empty hwrites'] at hrow
    exact hsome row (hnamed c' hknown' _ row hrow hslug).2 hslug

end Lookup

/-- In the phase a session may do what leaves the committed rows and the service alone. -/
def Buffers (T : Script Row ManagementRequest Upstream G) (g : G) : Prop :=
  ∀ o c c', T.known g c → c'.committed = c.committed → c'.upstream = c.upstream →
    c'.saved = c.saved → T.move g o c g c'

variable (hignores : T.Ignores lifecycleRow calm)
include hignores

theorem follows_billed {input : BillingEventInput}
    {Q : Option BillingState × Option BillingState × Option Instant → AList Row → G → Prop}
    (hcalm : calm g) (hE : ∀ e, E e ∅ g) (hQ : ∀ answer, Q answer ∅ g) :
    Follows schema T (applyBillingEvent tenantId input) ∅ g Q E := by
  refine .bind (.utcNow (hignores.passes _) fun utc => ?_)
  refine .spared_transaction hignores hcalm ?_ .empty hQ hE
  refine .bind .sqlNow fun now => .bind (.lock _) fun old => ?_
  dsimp only
  cases BillingState.apply (old.map (·.state)) input.event (inTrial input utc) with
  | none => exact .pure _
  | some state => exact .bind (.upsert (by simp [lifecycleRow])) fun _ => .pure _

section Restores

variable {R : G → Prop} (hnamed : ∀ g c, T.known g c → Named slug tenantId c.committed)
  (hrestore : ∀ c c' (tenant : TenantRow) row url actor, T.known g c →
    c.committed.lookup (.tenant tenantId) = some tenant → T.known g c' → c'.writes = ∅ →
    (parkSnapshotRow c'.seen tenantId).filter unconsumed = some row →
    Follows schema T (Routes.restoreTenantFromSnapshot cfg slug tenantId url row tenant.status actor)
      ∅ g (fun _ w g' => w = ∅ ∧ R g') fun _ _ _ => True)
include hnamed hrestore

theorem follows_unparkTenant {rawSlug actor : String} (hslug : Validation.slug rawSlug = .ok slug) :
    Follows schema T (Routes.unparkTenant cfg rawSlug actor) ∅ g (fun _ _ g' => R g')
      fun _ _ _ => True := by
  refine .bind (.required hslug ?_)
  refine .bind (follows_findTenant (hignores.passes _) (hnamed _) (fun _ => trivial)
    fun c tenant found hknown hlookup hid hfound => ?_)
  rw [hfound, hid]
  refine .bind (.ensure (fun _ => ?_) fun _ => trivial)
  refine .bind (.bind (.snapshot (hignores.passes _) fun c' hknown' hwrites' => .pure ?_))
  refine .bind (.ensure (fun _ => ?_) fun _ => trivial)
  refine .bind (.okOr (fun row hloaded => ?_) fun _ => trivial)
  refine .bind (.bind (.snapshot (hignores.passes _) fun _ _ _ => .pure ?_))
  refine .bind (.okOr (fun url _ => ?_) fun _ => trivial)
  refine .bind (.mono ?_ (fun _ _ _ h => h)
    (hrestore c c' tenant row url actor hknown hlookup hknown' hwrites' hloaded))
  rintro _ _ g' ⟨rfl, hR⟩
  exact follows_findTenant (hignores.passes _) (hnamed _) (fun _ => trivial)
    fun _ _ _ _ _ _ _ => hR

theorem follows_paymentWebhook {provided : String} {req : Routes.BillingWebhookRequest}
    (hcalm : calm g) (hevent : BillingEvent.parse req.event = some .paymentSucceeded)
    (hslug : Validation.slug req.tenantSlug = .ok slug) :
    Follows schema T (Routes.billingWebhook cfg provided req) ∅ g (fun _ _ _ => True)
      fun _ _ _ => True := by
  refine .bind (.okOr (fun secret _ => ?_) fun _ => trivial)
  refine .bind (.ensure (fun _ => ?_) fun _ => trivial)
  rw [hevent]
  refine .bind (.required hslug ?_)
  refine .bind (follows_findTenant (hignores.passes _) (hnamed _) (fun _ => trivial)
    fun c tenant found hknown hlookup hid hfound => ?_)
  rw [hfound, hid]
  refine .bind (follows_billed hignores hcalm (fun _ => trivial) fun _ => ?_)
  refine .bind (.bind (.bind (.snapshot (hignores.passes _) fun c' hknown' hwrites' => .pure ?_)))
  rw [hid]
  split_ifs
  · exact .pure (.pure trivial)
  · refine .bind (.okOr (fun row hloaded => ?_) fun _ => trivial)
    refine .bind (.bind (.snapshot (hignores.passes _) fun _ _ _ => .pure ?_))
    refine .bind (.okOr (fun url _ => ?_) fun _ => trivial)
    refine .bind (.mono (fun _ _ _ _ => ?_) (fun _ _ _ h => h)
      (hrestore c c' tenant row url _ hknown hlookup hknown' hwrites' hloaded))
    exact .pure (.pure trivial)

end Restores

variable (hbuffers : Buffers T g)
include hbuffers

variable (hnamed : ∀ c, T.known g c → Named slug tenantId c.committed)
include hnamed

theorem follows_setStatus {status : TenantStatus} {Q : TenantSummary → AList Row → G → Prop}
    (hcommit : ∀ c (row : TenantRow), T.known g c → row.id = tenantId → row.slug = slug →
      row.status = status → c.writes = insert (.tenant tenantId) row ∅ →
      ∃ g', T.move g .commit c g' c.committing ∧ ∀ found, Q found ∅ g') :
    Follows schema T (setStatus cfg slug status) ∅ g Q fun _ _ _ => True := by
  refine .bind (.snapshot (hignores.passes _) fun _ _ _ => ?_)
  refine .bind (.ensure (fun _ => ?_) fun _ => trivial)
  refine .bind (.transaction hignores ?_)
  refine .bind (.sqlNow (hignores.passes _) fun began _ _ => ?_)
  refine .bind (follows_updateTenant (hignores.passes _) hnamed ?_ fun row hid hslug => ?_)
  · exact .okOr (fun _ hsome => by cases hsome)
      fun _ => drops hignores .empty trivial
  refine .write (fun c hknown _ => ?_) fun c e hknown _ => ?_
  · refine ⟨g, hbuffers _ c _ hknown rfl rfl rfl, .okOr (fun _ _ => ?_) fun h => by cases h⟩
    intro d hknownd hwritesd
    obtain ⟨g', hmove, hQ⟩ := hcommit d { row with status := status, updatedAt := began.start }
      hknownd hid hslug rfl hwritesd
    exact ⟨g', hmove, follows_tenantBySlug (hignores.passes _) trivial fun _ _ _ _ _ _ => hQ _⟩
  · exact ⟨g, hbuffers _ c c hknown rfl rfl rfl, drops hignores .empty trivial⟩

omit hnamed

theorem follows_saveParkSnapshot {snapshot : ParkSnapshotRow} {already : Bool}
    {P : ParkSnapshotRow → Prop} {Q : Unit → AList Row → G → Prop}
    (hrow : ∀ c now, T.known g c →
      P (savedSnapshot snapshot already now (parkSnapshotRow c.committed snapshot.tenantId)))
    (hcommit : ∀ c row, T.known g c → P row →
      c.writes = insert (.parkSnapshot snapshot.tenantId) row ∅ →
      ∃ g', T.move g .commit c g' c.committing ∧ Q () ∅ g') :
    Follows schema T (saveParkSnapshot snapshot already) ∅ g Q fun _ _ _ => True := by
  refine .transaction hignores ?_
  refine .bind (.sqlNow (hignores.passes _) fun began _ _ => ?_)
  refine .bind (.upsert (fun c hknown hwrites => ?_) fun c e hknown _ => ?_)
  · refine ⟨g, hbuffers _ c _ hknown rfl rfl rfl, .pure fun d hknownd hwritesd => ?_⟩
    refine hcommit d _ hknownd ?_ hwritesd
    rw [lookup_seen_of_empty hwrites]
    exact hrow c began.start hknown
  · exact ⟨g, hbuffers _ c c hknown rfl rfl rfl, drops hignores .empty trivial⟩

theorem follows_consumeParkSnapshot {actor : String} {Q : Unit → AList Row → G → Prop}
    (hcalm : calm g)
    (hnone : ∀ c, T.known g c → (∀ row, parkSnapshotRow c.committed tenantId = some row →
      unconsumed row = false) → Q () ∅ g)
    (hcommit : ∀ c (row : ParkSnapshotRow), T.known g c → row.unparkedAt.isSome = true →
      c.writes = insert (.parkSnapshot tenantId) row ∅ →
      ∃ g', T.move g .commit c g' c.committing ∧ Q () ∅ g') :
    Follows schema T (consumeParkSnapshot tenantId actor) ∅ g Q fun _ _ _ => True := by
  refine .transaction hignores ?_
  refine .bind (.sqlNow (hignores.passes _) fun _ _ _ => ?_)
  refine .bind (.updateRow (hignores.passes _) (fun c hknown hwrites hmiss => ?_)
    fun c _ row _ _ _ _ => ?_)
  · refine .pure (commits hignores hcalm .empty (hnone c hknown ?_))
    intro row hrow
    exact hmiss row ((lookup_seen_of_empty hwrites _).trans hrow)
  · refine .write (fun c hknown _ => ?_) fun c e hknown _ => ?_
    · exact ⟨g, hbuffers _ c _ hknown rfl rfl rfl, .pure fun d hknownd hwritesd =>
        hcommit d _ hknownd rfl hwritesd⟩
    · exact ⟨g, hbuffers _ c c hknown rfl rfl rfl, drops hignores .empty trivial⟩

end Follows

end ControlPlane
