import ControlPlane.Proof.Jobs

/-!
# Calls served one after the other

A quiet database is quiet again after each call. What the store's operations do to it is said here,
row by row.
-/

namespace ControlPlane

open ReadCommitted ReadCommitted.Handler Store

variable {cfg : Config}

variable {db : AList Row} {up : Upstream} {n : Nat} {E : ApiError → View Row Upstream → Prop}

theorem serial_tenantBySlug {slug : String} {v : View Row Upstream}
    {Q : TenantSummary → View Row Upstream → Prop}
    (hmissing : tenantRow v.seen slug = none → E .notFound v)
    (hfound : ∀ tenant now, tenantRow v.seen slug = some tenant →
      Q (summary cfg v.seen now tenant) v) :
    serial schema (tenantBySlug cfg slug) v Q E := by
  simp only [tenantBySlug, serial_bind, serial_snapshot, serial_okOr, serial_utcNow, serial_pure]
  exact ⟨fun tenant htenant now => hfound tenant now htenant, hmissing⟩

theorem serial_knownTenant {slug : String} {tenant : TenantRow}
    {Q : TenantSummary → View Row Upstream → Prop} (htenant : tenantRow db slug = some tenant)
    (hQ : ∀ now, Q (summary cfg db now tenant) (.between db up n)) :
    serial schema (tenantBySlug cfg slug) (.between db up n) Q E := by
  refine serial_tenantBySlug ?_ fun found now => ?_ <;> rw [View.between_seen, htenant]
  · simp
  · intro hfound
    exact Option.some.inj hfound ▸ hQ now

def billed (tenantId : Uuid) (input : BillingEventInput) (state : BillingState)
    (utc now : Instant) (old : Option TenantBillingRow) : TenantBillingRow :=
  old.elim (newBilling tenantId input state (proposedStart input utc) now)
    (mergeBilling input state (proposedStart input utc) now)

/-- The provider's name fits its column. -/
def namesProvider (provider : String) : Bool := !isBlank provider && provider.length ≤ 32

variable {tenantId : Uuid} {input : BillingEventInput}

theorem billingCheck_billed {state : BillingState} {utc now : Instant}
    {old : Option TenantBillingRow} :
    billingCheck (billed tenantId input state utc now old) = namesProvider input.provider := by
  cases old <;> rfl

theorem serial_applyBillingEvent
    {Q : Option BillingState × Option BillingState × Option Instant → View Row Upstream → Prop}
    (hrefused : namesProvider input.provider = false → E (.database (.constraint .check)) (.between db up n))
    (hunmoved : ∀ utc, BillingState.apply ((billingRow db tenantId).map (·.state)) input.event
      (inTrial input utc) = none → ∀ previous, Q (previous, previous, none) (.between db up n))
    (hmoved : namesProvider input.provider = true → ∀ utc now state,
      BillingState.apply ((billingRow db tenantId).map (·.state)) input.event (inTrial input utc) =
      some state → ∀ previous, Q (previous, some state,
      some (billed tenantId input state utc now (billingRow db tenantId)).subscriptionStartedAt)
      (.between (saved db (.billing tenantId) (billed tenantId input state utc now
      (billingRow db tenantId))) up n)) :
    serial schema (applyBillingEvent tenantId input) (.between db up n) Q E := by
  simp only [applyBillingEvent, serial_bind, serial_utcNow,
    serial_inTransaction, serial_sqlNow, serial_lock, View.between_seen]
  intro utc now
  cases hstate : BillingState.apply ((billingRow db tenantId).map (·.state)) input.event
      (inTrial input utc) with
  | none =>
    rw [show db.lookup (.billing tenantId) = billingRow db tenantId from rfl, hstate]
    simp only [serial_pure, View.engage_settled, View.engage_seen, View.between_seen,
      View.between_settled]
    exact hunmoved utc hstate _
  | some state =>
    rw [show db.lookup (.billing tenantId) = billingRow db tenantId from rfl, hstate]
    simp only [serial_bind, serial_upsert, serial_pure,
      View.verdict_of_index_none (show schema.index (.billing tenantId) _ = none from rfl)]
    have hproposed : schema.check (.billing tenantId) (newBilling tenantId input state
        (proposedStart input utc) now) = namesProvider input.provider := rfl
    have hnew : schema.check (.billing tenantId)
        ((AList.lookup (.billing tenantId) (View.between db up n).engage.seen).elim
          (newBilling tenantId input state (proposedStart input utc) now)
          (mergeBilling input state (proposedStart input utc) now)) =
        namesProvider input.provider := billingCheck_billed
    rw [hproposed, hnew]
    refine ⟨fun hnames _ => hmoved hnames utc now state hstate _, fun e hverdict => ?_, hrefused⟩
    split_ifs at hverdict with hnames
    obtain rfl := Verdict.refuse.inj hverdict
    exact hrefused (by simpa using hnames)

theorem serial_anchorGuarantee {startedAt : Instant} {Q : Bool → View Row Upstream → Prop}
    (hrefused : ∀ row : TenantGuaranteeRow, db.lookup (.guarantee tenantId) = some row →
      guaranteeCheck (anchored startedAt ((runtimeRow db tenantId).bind (·.northStarFans)) row) =
      false → E (.database (.constraint .check)) (.between db up n))
    (hkept : (∀ row : TenantGuaranteeRow, db.lookup (.guarantee tenantId) = some row →
      row.anchoredStartedAt = some startedAt) → Q false (.between db up n))
    (hmoved : ∀ row : TenantGuaranteeRow, db.lookup (.guarantee tenantId) = some row →
      row.anchoredStartedAt ≠ some startedAt → Q true (.between (saved db (.guarantee tenantId)
      (anchored startedAt ((runtimeRow db tenantId).bind (·.northStarFans)) row)) up n)) :
    serial schema (anchorGuaranteeToSubscription tenantId startedAt) (.between db up n) Q E := by
  simp only [anchorGuaranteeToSubscription, serial_inTransaction, serial_bind, serial_pure]
  refine serial_updateRow (fun hmiss => ?_) fun row hrow hqualifies => ⟨fun _ => ?_, ?_⟩
  · simp only [View.between_seen, View.between_settled]
    exact hkept fun row hrow => by simpa using hmiss row (by simpa using hrow)
  · rw [View.between_put, View.between_seen]
    exact hmoved row (by simpa using hrow) (by simpa using hqualifies)
  · intro e hverdict
    rw [View.verdict_of_index_none rfl, View.between_seen] at hverdict
    split_ifs at hverdict with hcheck
    obtain rfl := Verdict.refuse.inj hverdict
    exact hrefused row hrow (by simpa [schema, rowCheck] using hcheck)

variable {s t : State}

theorem serves_post {call : Call} {answer : Except ApiError Reply} {issued : Nat}
    {Q : Except ApiError Reply → AList Row → Upstream → Prop}
    (hserves : Serves (server cfg) s call answer t) (hquiet : Quiescent s.toShared)
    (hissued : issued ≤ s.nextId)
    (hspec : serial schema (handle cfg call) (.between s.committed s.upstream issued)
      (fun reply v => Q (.ok reply) v.committed v.upstream)
      fun e v => Q (.error e) v.committed v.upstream) :
    Quiescent t.toShared ∧ Q answer t.committed t.upstream :=
  hserves.handled hquiet hissued rfl (handle_keeps call).2 hspec

theorem served_ok {call : Call} {reply : Reply} {Q : AList Row → Upstream → Prop}
    (hserves : Serves (server cfg) s call (.ok reply) t) (hquiet : Quiescent s.toShared)
    (hspec : serial schema (handle cfg call) (.between s.committed s.upstream)
      (fun _ v => Q v.committed v.upstream) fun _ _ => True) :
    Quiescent t.toShared ∧ Q t.committed t.upstream := by
  obtain ⟨hquiet', hpost⟩ := serves_post hserves
    (Q := fun answer db up => answer.isOk = true → Q db up) hquiet (Nat.zero_le _)
    (serial_mono (fun _ _ hQ _ => hQ) (fun _ _ _ hok => Bool.noConfusion hok) hspec)
  exact ⟨hquiet', hpost rfl⟩

theorem quiescent_of_booted (hboot : Booted cfg s) : Quiescent s.toShared :=
  ⟨hboot.atRest.2.1, hboot.atRest.2.2⟩

theorem quiescent_of_sequence {ok : State → Call → Except ApiError Reply → Prop}
    {served : List (Call × Except ApiError Reply)} (hquiet : Quiescent s.toShared)
    (hseq : Sequence (server cfg) ok s served t) :
    Quiescent t.toShared := by
  induction hseq with
  | nil => exact hquiet
  | cons _ _ hserves ih =>
    exact (serves_post hserves (Q := fun _ _ _ => True) ih (Nat.zero_le _)
      (serial_of_forall (fun _ _ => trivial) fun _ _ => trivial)).1

end ControlPlane
