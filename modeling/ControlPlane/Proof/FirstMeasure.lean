import ControlPlane.Proof.Guarantee

/-!
# The first measurement against the payment

If the start's anchoring statement looks for the guarantee while the first report's row is
uncommitted, it finds none, and nothing ever corrects the deadline of that row.
-/

namespace ControlPlane

open ReadCommitted ReadCommitted.Handler Store Function Option Scene AList

namespace FirstMeasure

inductive Phase where
  | unmeasured
  | measured
  | reported
  | unpaid
  | recorded (startedAt : Instant)
  | found (startedAt : Instant)
  | anchoring (startedAt : Instant)
  | missed (startedAt : Instant)
  | anchored (startedAt : Instant)

def Phase.ofReport : Phase → Bool
  | .unmeasured | .measured | .reported => true
  | _ => false

def Phase.Paid (phase : Phase) : Prop :=
  ∃ startedAt, phase = .missed startedAt ∨ phase = .anchored startedAt

def Phase.calm : Phase → Prop
  | .recorded _ => False
  | _ => True

def concerns : Key → Prop
  | .tenant _ | .billing _ | .guarantee _ => True
  | _ => False

def Due (startedAt : Instant) (row : TenantGuaranteeRow) : Prop :=
  row.deadline = startedAt + days 90

variable (slug : String) (tenantId : Uuid)

def guaranteeRow (db : AList Row) : Option TenantGuaranteeRow := db.lookup (.guarantee tenantId)

def startOf (db : AList Row) : Option Instant :=
  (billingRow db tenantId).map (·.subscriptionStartedAt)

structure Clean (w : AList Row) : Prop where
  billing : w.lookup (.billing tenantId) = none
  guarantee : guaranteeRow tenantId w = none

def Phase.Knows (c : Scene Row Upstream) : Phase → Prop
  | .unmeasured => guaranteeRow tenantId c.committed = none ∧ Clean tenantId c.writes
  | .measured => guaranteeRow tenantId c.committed = none ∧
      c.writes.lookup (.billing tenantId) = none ∧
      ∃ row, guaranteeRow tenantId c.writes = some row ∧ row.anchoredStartedAt = none
  | .reported => (guaranteeRow tenantId c.committed).isSome = true ∧ Clean tenantId c.writes
  | .unpaid => guaranteeRow tenantId c.writes = none
  | .recorded startedAt => startOf tenantId c.committed = some startedAt ∧
      startOf tenantId c.saved = some startedAt ∧ Clean tenantId c.writes
  | .found startedAt => startOf tenantId c.committed = some startedAt ∧
      (guaranteeRow tenantId c.committed).isSome = true ∧ Clean tenantId c.writes
  | .anchoring startedAt => startOf tenantId c.committed = some startedAt ∧
      (guaranteeRow tenantId c.committed).isSome = true ∧
      c.writes.lookup (.billing tenantId) = none ∧
      ∃ row, guaranteeRow tenantId c.writes = some row ∧ Due startedAt row
  | .missed startedAt => startOf tenantId c.committed = some startedAt ∧ Clean tenantId c.writes ∧
      ∀ row, guaranteeRow tenantId c.committed = some row → Due startedAt row
  | .anchored startedAt => startOf tenantId c.committed = some startedAt ∧ Clean tenantId c.writes ∧
      ∃ row, guaranteeRow tenantId c.committed = some row ∧ Due startedAt row

def SoundAnchor (db : AList Row) : Prop :=
  ∀ row startedAt, guaranteeRow tenantId db = some row → row.anchoredStartedAt = some startedAt →
    Due startedAt row

structure Known (phase : Phase) (c : Scene Row Upstream) : Prop where
  named : Named slug tenantId c.committed
  anchors : SoundAnchor tenantId c.committed
  tenants : ∀ id : Uuid, c.writes.lookup (.tenant id) = none
  pending : SoundAnchor tenantId c.writes
  knows : phase.Knows tenantId c

inductive Move : Phase → Op Row ManagementRequest → Scene Row Upstream → Phase →
    Scene Row Upstream → Prop
  | idle {phase o c c'} (hsame : SameOn concerns c c')
      (hsaved : c'.saved = c.saved ∨ phase.calm) : Move phase o c phase c'
  | measure {o c} (row : TenantGuaranteeRow)
      (hdue : ∀ startedAt, startOf tenantId c.committed = some startedAt → Due startedAt row)
      (hrow : row.anchoredStartedAt = none) :
      Move .unmeasured o c .measured (c.put (.guarantee tenantId) row)
  | report {c} : Move .measured .commit c .reported c.committing
  | drop {c} : Move .measured .rollback c .unmeasured c.dropping
  | enter {o c} (row : TenantBillingRow) :
      Move .unpaid o c .unpaid (c.put (.billing tenantId) row)
  | record {c} (row : TenantBillingRow) (hrow : c.writes.lookup (.billing tenantId) = some row) :
      Move .unpaid .commit c (.recorded row.subscriptionStartedAt) c.committing
  | find {startedAt c} (hfound : (guaranteeRow tenantId c.seen).isSome = true) :
      Move (.recorded startedAt) .snapshot c (.found startedAt) c
  | miss {startedAt c}
      (hmissed : ∀ row, guaranteeRow tenantId c.seen = some row →
        row.anchoredStartedAt = some startedAt) :
      Move (.recorded startedAt) .snapshot c (.missed startedAt) c
  | already {startedAt o c} (row : TenantGuaranteeRow)
      (hseen : guaranteeRow tenantId c.seen = some row)
      (hrow : row.anchoredStartedAt = some startedAt) :
      Move (.found startedAt) o c (.anchored startedAt) (c.holding (.guarantee tenantId))
  | write {startedAt o c} (row : TenantGuaranteeRow) (hdue : Due startedAt row)
      (hrow : row.anchoredStartedAt = some startedAt) :
      Move (.found startedAt) o c (.anchoring startedAt) (c.put (.guarantee tenantId) row)
  | anchor {startedAt c} : Move (.anchoring startedAt) .commit c (.anchored startedAt) c.committing

def script : Script Row ManagementRequest Upstream Phase where
  known := Known slug tenantId
  move := Move tenantId

theorem ignores_script : (script slug tenantId).Ignores concerns Phase.calm :=
  fun _ _ _ _ _ hsame hsaved => .idle hsame hsaved

section Handlers

variable {slug tenantId} {cfg : Config} {phase : Phase}

theorem Known.id_eq {c : Scene Row Upstream} {tenant : TenantRow}
    (hknown : Known slug tenantId phase c) (htenant : tenantRow c.seen slug = some tenant) :
    tenant.id = tenantId := by
  refine (hknown.named.congr fun id => ?_).id_eq htenant
  rw [lookup_seen, hknown.tenants, none_or]

theorem follows_report {rawSlug : String} {input : RuntimeReportRequest} {fans : Int}
    (hslug : Validation.slug rawSlug = .ok slug) (hfans : input.northStarFans = some fans) :
    Follows schema (script slug tenantId) (Routes.reportRuntime cfg rawSlug input) ∅
      .unmeasured (fun _ _ phase => phase = .reported) fun _ _ _ => True := by
  have hignores := ignores_script slug tenantId
  refine .bind (.required hslug ?_)
  refine .bind (.utcNow (hignores.passes _) fun utc => ?_)
  refine .bind (.require (fun _ _ => ?_) fun _ _ => trivial)
  refine .bind (follows_tenantBySlug (hignores.passes _) trivial
    fun c tenant now hknown hwrites htenant => ?_)
  have hid : tenant.id = tenantId := hknown.id_eq htenant
  rw [show (summary cfg c.seen now tenant).tenant = tenant from rfl, hid]
  refine .transaction hignores ?_
  refine .bind (.sqlNow (hignores.passes _) fun _ _ _ => ?_)
  refine .bind (.of_stays (hignores.passes _) (.upsert (by simp [concerns]))
    (fun runtime w hagree => ?_) fun e w hagree =>
      drops hignores (FreeOf.empty.agreeOn hagree) trivial)
  have hfree : FreeOf concerns w := FreeOf.empty.agreeOn hagree
  rw [hfans]
  refine .bind (.bind (.insert ?_ ?_ ?_))
  · -- the row goes in, with a deadline computed from what the statement sees
    intro c hknown hwrites _
    refine ⟨.measured, .measure _ (fun startedAt hstart => ?_) rfl, ?_⟩
    · have hbilling : startOf tenantId c.seen = some startedAt := by
        rw [startOf, billingRow, lookup_seen, hknown.knows.2.billing, none_or]
        exact hstart
      simp only [startOf] at hbilling
      rw [Due, firstGuarantee, hbilling, getD_some]
    · refine .pure (.of_stays (hignores.passes _) ?_ ?_ ?_)
      · refine .bind .utcNow fun _ => .bind (.whenever (.forSome fun _ =>
          spares_enqueueEventTx (by simp [concerns]) _ _ _)) fun _ => ?_
        refine .bind (spares_raiseOutreachAlerts (by simp [concerns]) (by simp [concerns]) _ _ _)
          fun _ => ?_
        exact .bind (.whenever (spares_enqueueEventTx (by simp [concerns]) _ _ _)) fun _ => .pure _
      · exact fun _ _ _ c _ _ => ⟨.reported, .report, rfl⟩
      · exact fun _ _ _ c _ _ => ⟨.unmeasured, .drop, trivial⟩
  · -- there is no other row it could run into
    intro c hknown hwrites hthere
    exfalso
    obtain hmem | hindex := hthere
    · have hsome := lookup_isSome.mpr hmem
      have hpending : c.writes.lookup (.guarantee tenantId) = none := hknown.knows.2.guarantee
      have hstored : c.committed.lookup (.guarantee tenantId) = none := hknown.knows.1
      rw [lookup_seen, hpending, hstored] at hsome
      simp at hsome
    · simp [schema, rowIndex] at hindex
  · intro c _ hwrites _
    refine ⟨.unmeasured, .idle (.refl c) (.inl rfl), ?_⟩
    exact drops hignores hfree trivial

theorem follows_applyBillingEvent {input : BillingEventInput}
    {Q : Option BillingState × Option BillingState × Option Instant → AList Row → Phase → Prop}
    (hevent : input.event = .subscriptionStarted)
    (hQ : ∀ previous state startedAt, Q (previous, state, some startedAt) ∅ (.recorded startedAt)) :
    Follows schema (script slug tenantId) (applyBillingEvent tenantId input) ∅ .unpaid Q
      fun _ _ _ => True := by
  have hignores := ignores_script slug tenantId
  refine .bind (.utcNow (hignores.passes _) fun utc => ?_)
  refine .transaction hignores ?_
  refine .bind (.sqlNow (hignores.passes _) fun _ _ _ => ?_)
  refine .bind (.lock (hignores.passes _) fun c _ _ => ?_)
  obtain ⟨state, hstate⟩ : ∃ state, BillingState.apply
      ((c.seen.lookup (.billing tenantId) : Option TenantBillingRow).map (·.state)) input.event
      (inTrial input utc) = some state := by
    rw [hevent]
    exact ⟨_, rfl⟩
  simp only [hstate]
  refine .bind (.upsert (fun c _ _ => ?_) fun c _ _ _ => ?_)
  · refine ⟨.unpaid, .enter _, .pure fun c' _ hwrites' => ?_⟩
    exact ⟨_, .record _ (by rw [hwrites', lookup_insert]), hQ _ _ _⟩
  · refine ⟨.unpaid, .idle (.refl c) (.inl rfl), ?_⟩
    exact drops hignores .empty trivial

theorem follows_anchorGuarantee {startedAt : Instant} {Q : Bool → AList Row → Phase → Prop}
    (hmissed : Q false ∅ (.missed startedAt))
    (hanchored : ∀ moved, Q moved ∅ (.anchored startedAt)) :
    Follows schema (script slug tenantId) (anchorGuaranteeToSubscription tenantId startedAt)
      ∅ (.recorded startedAt) Q fun _ _ _ => True := by
  have hignores := ignores_script slug tenantId
  refine .transaction hignores ?_
  refine .bind (.bind (.ask ?_))
  rintro c seen c' hknown hwrites ⟨rfl, rfl⟩
  rw [hwrites]
  cases hrow : ((c'.seen.lookup (.guarantee tenantId) : Option TenantGuaranteeRow).filter
      fun row => row.anchoredStartedAt ≠ some startedAt) with
  | none =>
    refine ⟨.missed startedAt, .miss fun row hseen => ?_, ?_⟩
    · have := filter_eq_none_iff.mp hrow row hseen
      simpa using this
    · exact .pure (.pure (commits hignores trivial .empty hmissed))
  | some row =>
    obtain ⟨hseen, -⟩ := filter_eq_some_iff.mp hrow
    refine ⟨.found startedAt, .find (by rw [guaranteeRow, hseen, isSome_some]), ?_⟩
    refine .bind (.bind (.ask ?_))
    rintro c answer c' hknown hwrites ⟨rfl, rfl⟩
    obtain ⟨row, hrow⟩ := isSome_iff_exists.mp hknown.knows.2.1
    have hlocked : (c.seen.lookup (.guarantee tenantId) : Option TenantGuaranteeRow) = some row := by
      rw [lookup_seen]
      have hpending : c.writes.lookup (.guarantee tenantId) = none := hknown.knows.2.2.guarantee
      rw [hpending, none_or]
      exact hrow
    rw [hlocked, show (c.found (.guarantee tenantId) (some row)).writes = ∅ from hwrites]
    by_cases hanchor : row.anchoredStartedAt = some startedAt
    · -- another delivery has anchored the row meanwhile
      refine ⟨.anchored startedAt, .already row hlocked hanchor, .pure ?_⟩
      rw [filter_some_neg (by simpa using hanchor)]
      exact .pure (.pure (commits hignores trivial .empty (hanchored _)))
    · refine ⟨.found startedAt, .idle ⟨fun _ _ => rfl, fun _ _ => rfl, rfl⟩ (.inl rfl), .pure ?_⟩
      rw [filter_some_pos (by simpa using hanchor)]
      refine .bind (.write (fun c _ _ => ?_) fun c e _ _ => ?_)
      · refine ⟨.anchoring startedAt, .write _ rfl rfl, ?_⟩
        exact .pure (.pure fun c _ _ => ⟨.anchored startedAt, .anchor, hanchored _⟩)
      · exact ⟨.found startedAt, .idle (.refl c) (.inl rfl), drops hignores .empty trivial⟩

theorem follows_provisionOnPayment {condition : Prop} [Decidable condition]
    {Q : Unit → AList Row → Phase → Prop} (hpaid : phase.Paid) (hQ : ∀ w, Q () w phase) :
    Follows schema (script slug tenantId)
      (ReadCommitted.Handler.whenever condition (Routes.provisionOnPayment cfg slug)) ∅ phase Q
      fun _ _ _ => True := by
  have hcalm : phase.calm := by
    obtain ⟨startedAt, rfl | rfl⟩ := hpaid <;> trivial
  refine .of_spares (ignores_script slug tenantId) hcalm (.whenever ?_) .empty
    (fun _ w _ => hQ w) fun _ _ _ => trivial
  refine (spares_provisionOnPayment slug).subset fun key hkey hjob => ?_
  cases key <;> simp [concerns, Key.isJob] at hkey hjob

theorem follows_webhook {provided : String} {req : Routes.BillingWebhookRequest}
    (hevent : BillingEvent.parse req.event = some .subscriptionStarted)
    (hslug : Validation.slug req.tenantSlug = .ok slug) :
    Follows schema (script slug tenantId) (Routes.billingWebhook cfg provided req) ∅ .unpaid
      (fun _ _ phase => phase.Paid) fun _ _ _ => True := by
  have hignores := ignores_script slug tenantId
  refine .bind (.okOr (fun secret _ => ?_) fun _ => trivial)
  refine .bind (.ensure (fun _ => ?_) fun _ => trivial)
  rw [hevent]
  refine .bind (.required hslug ?_)
  refine .bind (follows_tenantBySlug (hignores.passes _) trivial
    fun c tenant now hknown hwrites htenant => ?_)
  have hid : tenant.id = tenantId := hknown.id_eq htenant
  rw [show (summary cfg c.seen now tenant).tenant = tenant from rfl, hid]
  refine .bind (follows_applyBillingEvent rfl fun previous state startedAt => ?_)
  refine .bind (.bind (.pure ?_))
  rw [hid]
  refine .bind (follows_anchorGuarantee ?_ fun _ => ?_)
  · exact follows_provisionOnPayment ⟨startedAt, .inl rfl⟩
      fun _ => .pure ⟨startedAt, .inl rfl⟩
  · exact follows_provisionOnPayment ⟨startedAt, .inr rfl⟩
      fun _ => .pure ⟨startedAt, .inr rfl⟩

end Handlers

section Moves

variable {slug tenantId}

theorem Clean.congr {w w' : AList Row} (hclean : Clean tenantId w)
    (hsame : ∀ key, concerns key → w'.lookup key = w.lookup key) : Clean tenantId w' where
  billing := (hsame (.billing tenantId) trivial).trans hclean.billing
  guarantee := (hsame (.guarantee tenantId) trivial).trans hclean.guarantee

theorem Clean.empty : Clean tenantId (∅ : AList Row) := ⟨rfl, rfl⟩

variable {phase : Phase} {c c' : Scene Row Upstream}

theorem Known.congr (hknown : Known slug tenantId phase c)
    (hcommitted : ∀ key, concerns key → c'.committed.lookup key = c.committed.lookup key)
    (hwrites : ∀ key, concerns key → c'.writes.lookup key = c.writes.lookup key)
    (hsaved : c'.saved = c.saved ∨ phase.calm) : Known slug tenantId phase c' := by
  have hrow : guaranteeRow tenantId c'.committed = guaranteeRow tenantId c.committed :=
    hcommitted (.guarantee tenantId) trivial
  have hstart : startOf tenantId c'.committed = startOf tenantId c.committed := by
    rw [startOf, startOf, billingRow, billingRow, hcommitted (.billing tenantId) trivial]
  have hpending : guaranteeRow tenantId c'.writes = guaranteeRow tenantId c.writes :=
    hwrites (.guarantee tenantId) trivial
  have hbilling := hwrites (.billing tenantId) trivial
  refine ⟨hknown.named.congr fun id => hcommitted _ trivial, ?_, fun id => ?_, ?_, ?_⟩
  · intro row startedAt
    rw [hrow]
    exact hknown.anchors row startedAt
  · rw [hwrites (.tenant id) trivial, hknown.tenants]
  · intro row startedAt
    rw [hpending]
    exact hknown.pending row startedAt
  · have hknows := hknown.knows
    cases phase with
    | unmeasured | reported => exact ⟨hrow ▸ hknows.1, hknows.2.congr hwrites⟩
    | measured | anchoring => simpa only [Phase.Knows, hrow, hstart, hpending, hbilling] using hknows
    | unpaid => exact hpending.trans hknows
    | recorded startedAt =>
      obtain ⟨hrecorded, hsave, hclean⟩ := hknows
      have hsaved : c'.saved = c.saved := hsaved.resolve_right id
      exact ⟨hstart.trans hrecorded, hsaved ▸ hsave, hclean.congr hwrites⟩
    | found startedAt =>
      exact ⟨hstart.trans hknows.1, hrow ▸ hknows.2.1, hknows.2.2.congr hwrites⟩
    | missed | anchored =>
      exact ⟨hstart.trans hknows.1, hknows.2.1.congr hwrites, hrow ▸ hknows.2.2⟩

theorem guaranteeRow_committing :
    guaranteeRow tenantId c.committing.committed =
      (guaranteeRow tenantId c.writes).or (guaranteeRow tenantId c.committed) :=
  lookup_committing ..

theorem startOf_committing (hclean : c.writes.lookup (.billing tenantId) = none) :
    startOf tenantId c.committing.committed = startOf tenantId c.committed := by
  rw [startOf, startOf, billingRow, billingRow, lookup_committing, hclean, none_or]

theorem Known.named_committing (hknown : Known slug tenantId phase c) :
    Named slug tenantId c.committing.committed :=
  hknown.named.congr fun id => by
    rw [lookup_committing, hknown.tenants, none_or]

theorem Known.anchors_committing (hknown : Known slug tenantId phase c) :
    SoundAnchor tenantId c.committing.committed := by
  intro row startedAt hrow hanchor
  rw [guaranteeRow_committing] at hrow
  obtain hpending | ⟨-, hstored⟩ := or_eq_some_iff.mp hrow
  · exact hknown.pending row startedAt hpending hanchor
  · exact hknown.anchors row startedAt hstored hanchor

theorem soundAnchor_empty : SoundAnchor tenantId (∅ : AList Row) :=
  fun _ _ hrow => by simp [guaranteeRow] at hrow

theorem Clean.guaranteeRow_seen (hclean : Clean tenantId c.writes) :
    guaranteeRow tenantId c.seen = guaranteeRow tenantId c.committed := by
  have hpending : c.writes.lookup (.guarantee tenantId) = none := hclean.guarantee
  rw [guaranteeRow, lookup_seen, hpending, none_or, guaranteeRow]

variable {phase' : Phase}

theorem Known.committing (hknown : Known slug tenantId phase c)
    (hknows : phase'.Knows tenantId c.committing) : Known slug tenantId phase' c.committing :=
  ⟨hknown.named_committing, hknown.anchors_committing, fun _ => rfl, soundAnchor_empty, hknows⟩

theorem Known.put_guarantee {row : TenantGuaranteeRow} (hknown : Known slug tenantId phase c)
    (hsound : ∀ startedAt, row.anchoredStartedAt = some startedAt → Due startedAt row)
    (hknows : phase'.Knows tenantId (c.put (.guarantee tenantId) row)) :
    Known slug tenantId phase' (c.put (.guarantee tenantId) row) := by
  refine ⟨hknown.named, hknown.anchors, fun id => ?_, fun row' startedAt hrow' hanchor => ?_, hknows⟩
  · rw [put, lookup_insert_ne (by simp), hknown.tenants]
  · have hput : row = row' := by
      simpa [guaranteeRow, put] using hrow'
    exact hput ▸ hsound startedAt (hput ▸ hanchor)

variable {o : Op Row ManagementRequest} {startedAt : Instant}

theorem Move.known (hmove : Move tenantId phase o c phase' c')
    (hknown : Known slug tenantId phase c) : Known slug tenantId phase' c' := by
  have hknows := hknown.knows
  cases hmove with
  | idle hsame hsaved => exact hknown.congr hsame.committed hsame.writes hsaved
  | measure row hdue hrow =>
    refine hknown.put_guarantee (fun startedAt hanchor => ?_) ⟨hknows.1, ?_, row, ?_, hrow⟩
    · simp [hrow] at hanchor
    · rw [put, lookup_insert_ne (by simp), hknows.2.billing]
    · exact lookup_insert ..
  | report =>
    obtain ⟨-, -, row, hrow, -⟩ := hknows
    refine hknown.committing ⟨?_, .empty⟩
    rw [guaranteeRow_committing, hrow, some_or, isSome_some]
  | drop =>
    exact ⟨hknown.named, hknown.anchors, fun _ => rfl, soundAnchor_empty, hknows.1, .empty⟩
  | enter row =>
    have hsame : guaranteeRow tenantId (c.put (.billing tenantId) row).writes =
        guaranteeRow tenantId c.writes := lookup_insert_ne (by simp)
    refine ⟨hknown.named, hknown.anchors, fun id => ?_, ?_, hsame.trans hknows⟩
    · rw [put, lookup_insert_ne (by simp), hknown.tenants]
    · intro row' startedAt
      rw [hsame]
      exact hknown.pending row' startedAt
  | record row hrow =>
    have hstart : startOf tenantId c.writes = some row.subscriptionStartedAt := by
      rw [startOf, billingRow, hrow, map_some]
    refine hknown.committing ⟨?_, hstart, .empty⟩
    rw [startOf, billingRow, lookup_committing, hrow, some_or, map_some]
  | find hfound =>
    rw [hknows.2.2.guaranteeRow_seen] at hfound
    exact { hknown with knows := ⟨hknows.1, hfound, hknows.2.2⟩ }
  | miss hmissed =>
    rw [hknows.2.2.guaranteeRow_seen] at hmissed
    refine { hknown with knows := ⟨hknows.1, hknows.2.2, fun row hrow => ?_⟩ }
    exact hknown.anchors row _ hrow (hmissed row hrow)
  | already row hseen hrow =>
    rw [hknows.2.2.guaranteeRow_seen] at hseen
    exact { hknown with
      knows := ⟨hknows.1, hknows.2.2, row, hseen, hknown.anchors row _ hseen hrow⟩ }
  | write row hdue hrow =>
    refine hknown.put_guarantee (fun startedAt hanchor => ?_)
      ⟨hknows.1, hknows.2.1, ?_, row, ?_, hdue⟩
    · obtain rfl := some.inj (hrow.symm.trans hanchor)
      exact hdue
    · rw [put, lookup_insert_ne (by simp), hknows.2.2.billing]
    · exact lookup_insert ..
  | anchor =>
    obtain ⟨hstart, -, hclean, row, hrow, hdue⟩ := hknows
    refine hknown.committing ⟨(startOf_committing hclean).trans hstart, .empty, row, ?_, hdue⟩
    rw [guaranteeRow_committing, hrow, some_or]

/-- What the other session knows survives the move. A report that commits must suit a webhook that has
missed its row. -/
theorem Move.others {other : Phase} {d d' : Scene Row Upstream}
    (hmove : Move tenantId phase o c phase' c') (hknown : Known slug tenantId phase c)
    (hother : Known slug tenantId other d) (hroles : other.ofReport ≠ phase.ofReport)
    (hshared : d.committed = c.committed) (hcommitted : d'.committed = c'.committed)
    (hwrites : d'.writes = d.writes) (hsaved : d'.saved = d.saved)
    (hlate : ∀ startedAt row, other = .missed startedAt →
      guaranteeRow tenantId c.writes = some row → Due startedAt row) :
    Known slug tenantId other d' := by
  have hknows := hknown.knows
  have hothers := hother.knows
  have hkept (hsame : ∀ key, concerns key → c'.committed.lookup key = c.committed.lookup key) :
      Known slug tenantId other d' :=
    hother.congr (fun key hkey => by rw [hcommitted, hsame key hkey, hshared])
      (fun _ _ => by rw [hwrites]) (.inl hsaved)
  -- a commit has to be looked at from each phase the other side can be in
  have hcommit (hc' : c' = c.committing) (hnext : other.Knows tenantId d') :
      Known slug tenantId other d' := by
    refine ⟨?_, ?_, fun id => by rw [hwrites, hother.tenants], hwrites ▸ hother.pending, hnext⟩
    · rw [hcommitted, hc']
      exact hknown.named_committing
    · rw [hcommitted, hc']
      exact hknown.anchors_committing
  cases hmove with
  | idle hsame _ => exact hkept hsame.committed
  | measure | drop | enter | find | miss | already | write => exact hkept fun _ _ => rfl
  | report =>
    obtain ⟨hnone, hbilling, row, hrow, -⟩ := hknows
    refine hcommit rfl ?_
    have hstart : startOf tenantId d'.committed = startOf tenantId d.committed := by
      rw [hcommitted, startOf_committing hbilling, hshared]
    rw [← hshared] at hnone
    cases other with
    | unmeasured | measured | reported => exact absurd rfl hroles
    | unpaid => exact (congrArg _ hwrites).trans hothers
    | recorded startedAt =>
      exact ⟨hstart.trans hothers.1, hsaved ▸ hothers.2.1, hwrites ▸ hothers.2.2⟩
    | found | anchoring | anchored => simp [Phase.Knows, hnone] at hothers
    | missed startedAt =>
      refine ⟨hstart.trans hothers.1, hwrites ▸ hothers.2.1, fun row' hrow' => ?_⟩
      rw [hcommitted, guaranteeRow_committing, hrow, some_or] at hrow'
      exact hlate startedAt row' rfl (hrow.trans hrow')
  | record row hrow =>
    refine hcommit rfl ?_
    have hsame : guaranteeRow tenantId d'.committed = guaranteeRow tenantId d.committed := by
      have hpending : guaranteeRow tenantId c.writes = none := hknows
      rw [hcommitted, guaranteeRow_committing, hpending, none_or, hshared]
    cases other with
    | unmeasured | measured => exact ⟨hsame.trans hothers.1, hwrites ▸ hothers.2⟩
    | reported => exact ⟨hsame ▸ hothers.1, hwrites ▸ hothers.2⟩
    | _ => exact absurd rfl hroles
  | anchor =>
    obtain ⟨-, hsome, -, row, hrow, -⟩ := hknows
    refine hcommit rfl ?_
    rw [← hshared] at hsome
    cases other with
    | unmeasured | measured => simp [hothers.1] at hsome
    | reported =>
      refine ⟨?_, hwrites ▸ hothers.2⟩
      rw [hcommitted, guaranteeRow_committing, hrow, some_or, isSome_some]
    | _ => exact absurd rfl hroles

theorem Move.ofReport (hmove : Move tenantId phase o c phase' c') :
    phase'.ofReport = phase.ofReport := by
  cases hmove <;> rfl

theorem Move.keeps_none (hmove : Move tenantId phase o c phase' c')
    (hknown : Known slug tenantId phase c) (hrole : phase.ofReport = false)
    (hnone : guaranteeRow tenantId c.committed = none) :
    guaranteeRow tenantId c'.committed = none := by
  have hknows := hknown.knows
  cases hmove with
  | idle hsame _ => exact (hsame.committed (.guarantee tenantId) trivial).trans hnone
  | measure | report | drop => simp [Phase.ofReport] at hrole
  | enter | find | miss | already | write => exact hnone
  | record row hrow =>
    have hpending : guaranteeRow tenantId c.writes = none := hknows
    rw [guaranteeRow_committing, hpending, none_or, hnone]
  | anchor => simp [Phase.Knows, hnone] at hknows

/-- The guarantee a report is about to commit is due when the recorded subscription says, if it was
before or is computed now. -/
theorem Move.pending_due (hmove : Move tenantId phase o c phase' c') (hrole : phase.ofReport = true)
    (hstart : startOf tenantId c.committed = some startedAt)
    (hdue : ∀ row, guaranteeRow tenantId c.writes = some row → Due startedAt row) :
    ∀ row, guaranteeRow tenantId c'.writes = some row → Due startedAt row := by
  intro row hrow
  cases hmove with
  | idle hsame _ =>
    apply hdue
    rw [← hrow]
    exact (hsame.writes (.guarantee tenantId) trivial).symm
  | measure row' hcomputed _ =>
    have hput : row' = row := by simpa [guaranteeRow, put] using hrow
    exact hput ▸ hcomputed startedAt hstart
  | report | drop => simp [guaranteeRow, committing, dropping] at hrow
  | _ => simp [Phase.ofReport] at hrole

theorem Move.missed_cases (hmove : Move tenantId phase o c (.missed startedAt) c') :
    phase = .missed startedAt ∨ phase = .recorded startedAt ∧ o = .snapshot := by
  cases hmove with
  | idle => exact .inl rfl
  | miss => exact .inr ⟨rfl, rfl⟩

end Moves

/-- The report's session follows its script, the webhook's its own, and a row the webhook has missed is
due when it should be. -/
structure Holds (report webhook : Nat) (s : State) (γ : Nat → Phase) : Prop where
  named : Named slug tenantId s.committed
  anchors : SoundAnchor tenantId s.committed
  known : ∀ sid tx, s.Live sid tx → Known slug tenantId (γ sid) (.of sid s.toShared tx)
  roles : ∀ sid tx, s.Live sid tx →
    sid = report ∧ (γ sid).ofReport = true ∨ sid = webhook ∧ (γ sid).ofReport = false
  unstarted : s.sessions report = none → guaranteeRow tenantId s.committed = none
  late : ∀ startedAt tx tx' row, s.Live webhook tx → γ webhook = .missed startedAt →
    s.Live report tx' → guaranteeRow tenantId tx'.writes = some row → Due startedAt row

/-- When the webhook's anchoring statement takes its snapshot, a guarantee that the report has inserted
and not committed is due ninety days after the recorded start. -/
def suits (report webhook : Nat) (s : State) (sid : Nat) : Bool :=
  match s.sessions sid, s.sessions report with
  | some ⟨_, some (.op .snapshot _), tx⟩, some σ =>
    match startOf tenantId tx.saved, guaranteeRow tenantId σ.txn.writes with
    | some startedAt, some row => sid ≠ webhook || decide (row.deadline = startedAt + days 90)
    | _, _ => true
  | _, _ => true

/-- One report and one webhook, in any interleaving that suits the anchoring statement. -/
def together (report webhook : Nat) (reported paid : Call) (s : State) : Action Key Call → Prop
  | .start sid call => sid = report ∧ call = reported ∨ sid = webhook ∧ call = paid
  | .run sid _ => suits tenantId report webhook s sid = true
  | .crash _ | .tick _ => True

variable {slug tenantId} {cfg : Config} {report webhook : Nat} {s t : State} {γ : Nat → Phase}

variable {sid : Nat} {call : Call} {tx tx' : Txn Row} {phase : Phase} {rawSlug provided : String}
  {input : RuntimeReportRequest} {req : Routes.BillingWebhookRequest}

theorem Holds.run {o : Op Row ManagementRequest} {next} {tx tx' : Txn Row}
    {answer : o.Result (Except ApiError Json)} {sh' : Shared Row Index Upstream} {phase : Phase}
    (hholds : Holds slug tenantId report webhook s γ) (hne : report ≠ webhook)
    (hsuits : suits tenantId report webhook s sid = true)
    (hsession : s.sessions sid = some ⟨call, some (.op o next), tx⟩)
    (hmove : Move tenantId (γ sid) o (.of sid s.toShared tx) phase (.of sid sh' tx')) :
    Holds slug tenantId report webhook (s.setSession sid ⟨call, some (next answer), tx'⟩ sh')
      (update γ sid phase) := by
  have hlive : s.Live sid tx := ⟨_, _, hsession⟩
  have hknown := hholds.known sid tx hlive
  have hnext := hmove.known hknown
  have hrole := hholds.roles sid tx hlive
  refine ⟨hnext.named, hnext.anchors, fun other tx₂ hother => ?_, fun other tx₂ hother => ?_, ?_, ?_⟩
  · obtain ⟨rfl, rfl, -⟩ | ⟨hother, hlive₂⟩ := hother.cases
    · rw [update_self]
      exact hnext
    · rw [update_of_ne hother]
      have hrole₂ := hholds.roles other tx₂ hlive₂
      refine hmove.others hknown (hholds.known other tx₂ hlive₂) ?_ rfl rfl rfl rfl ?_
      · obtain ⟨rfl, h⟩ | ⟨rfl, h⟩ := hrole <;> obtain ⟨rfl, h₂⟩ | ⟨rfl, h₂⟩ := hrole₂ <;>
          first | exact absurd rfl hother | rw [h, h₂]; simp
      · intro startedAt row hmissed hrow
        obtain ⟨rfl, h₂⟩ | ⟨rfl, -⟩ := hrole₂
        · simp [hmissed, Phase.ofReport] at h₂
        · obtain ⟨rfl, -⟩ | ⟨rfl, -⟩ := hrole
          · exact hholds.late startedAt tx₂ tx row hlive₂ hmissed hlive hrow
          · exact absurd rfl hother
  · obtain ⟨rfl, rfl, -⟩ | ⟨hother, hlive₂⟩ := hother.cases
    · rw [update_self, hmove.ofReport]
      exact hrole
    · rw [update_of_ne hother]
      exact hholds.roles other tx₂ hlive₂
  · intro hnone
    obtain ⟨hreport, hnone⟩ := setSession_eq_none.mp hnone
    obtain ⟨rfl, -⟩ | ⟨rfl, h⟩ := hrole
    · exact absurd rfl hreport
    · exact hmove.keeps_none hknown h (hholds.unstarted hnone)
  · intro startedAt tx₁ tx₂ row hlive₁ hmissed hlive₂ hrow
    obtain ⟨rfl, rfl, -⟩ | ⟨hwebhook, hpaying⟩ := hlive₁.cases
    · -- the webhook moves: it had missed the row before, or misses it now
      obtain ⟨rfl, -⟩ | ⟨-, hreporting⟩ := hlive₂.cases
      · exact absurd rfl hne
      · rw [update_self] at hmissed
        subst hmissed
        obtain hbefore | ⟨hbefore, rfl⟩ := hmove.missed_cases
        · exact hholds.late startedAt tx tx₂ row hlive hbefore hreporting hrow
        · have hknows := hknown.knows
          rw [hbefore] at hknows
          have hsaved : startOf tenantId tx.saved = some startedAt := hknows.2.1
          obtain ⟨_, _, hreport⟩ := hreporting
          simp only [suits, hsession, hreport, hsaved, hrow] at hsuits
          simpa [Due] using hsuits
    · rw [update_of_ne hwebhook] at hmissed
      obtain ⟨rfl, rfl, -⟩ | ⟨-, hreporting⟩ := hlive₂.cases
      · -- the report moves: it sees the start the webhook has recorded
        have hknows := (hholds.known webhook tx₁ hpaying).knows
        rw [hmissed] at hknows
        refine hmove.pending_due ?_ hknows.1 (fun row' hrow' => ?_) row hrow
        · obtain ⟨-, h⟩ | ⟨rfl, -⟩ := hrole
          · exact h
          · exact absurd rfl hne
        · exact hholds.late startedAt tx₁ tx row' hpaying hmissed hlive hrow'
      · exact hholds.late startedAt tx₁ tx₂ row hpaying hmissed hreporting hrow

theorem Holds.crash (hholds : Holds slug tenantId report webhook s γ) :
    Holds slug tenantId report webhook (s.setSession sid ⟨call, none, tx⟩
      (settle sid s.toShared s.committed)) γ := by
  have hlive {other : Nat} {tx₂ : Txn Row} (h : (s.setSession sid ⟨call, none, tx⟩
      (settle sid s.toShared s.committed)).Live other tx₂) : s.Live other tx₂ := by
    obtain ⟨-, -, hdead⟩ | ⟨-, hlive⟩ := h.cases
    · simp at hdead
    · exact hlive
  refine ⟨hholds.named, hholds.anchors, fun other tx₂ hother =>
    (hholds.known other tx₂ (hlive hother)).congr (fun _ _ => rfl) (fun _ _ => rfl) (.inl rfl),
    fun other tx₂ hother => hholds.roles other tx₂ (hlive hother),
    fun hnone => hholds.unstarted (setSession_eq_none.mp hnone).2,
    fun startedAt tx₁ tx₂ row hlive₁ hmissed hlive₂ =>
      hholds.late startedAt tx₁ tx₂ row (hlive hlive₁) hmissed (hlive hlive₂)⟩

theorem Holds.start {p} (hne : report ≠ webhook) (hholds : Holds slug tenantId report webhook s γ)
    (hnew : s.sessions sid = none) {phase : Phase}
    (hrole : sid = report ∧ phase = .unmeasured ∨ sid = webhook ∧ phase = .unpaid) :
    Holds slug tenantId report webhook (s.setSession sid ⟨call, some p, .idle⟩ s.toShared)
      (update γ sid phase) := by
  have hfresh : Known slug tenantId phase (.of sid s.toShared .idle) := by
    refine ⟨hholds.named, hholds.anchors, fun _ => rfl, soundAnchor_empty, ?_⟩
    obtain ⟨rfl, rfl⟩ | ⟨rfl, rfl⟩ := hrole
    · exact ⟨hholds.unstarted hnew, .empty⟩
    · rfl
  refine ⟨hholds.named, hholds.anchors, fun other tx₂ hother => ?_, fun other tx₂ hother => ?_,
    fun hnone => hholds.unstarted (setSession_eq_none.mp hnone).2,
    fun startedAt tx₁ tx₂ row hlive₁ hmissed hlive₂ hrow => ?_⟩
  · obtain ⟨rfl, rfl, -⟩ | ⟨hother, hlive⟩ := hother.cases
    · rw [update_self]
      exact hfresh
    · rw [update_of_ne hother]
      exact hholds.known other tx₂ hlive
  · obtain ⟨rfl, rfl, -⟩ | ⟨hother, hlive⟩ := hother.cases
    · rw [update_self]
      obtain ⟨rfl, rfl⟩ | ⟨rfl, rfl⟩ := hrole
      · exact .inl ⟨rfl, rfl⟩
      · exact .inr ⟨rfl, rfl⟩
    · rw [update_of_ne hother]
      exact hholds.roles other tx₂ hlive
  · obtain ⟨rfl, rfl, -⟩ | ⟨hwebhook, hpaying⟩ := hlive₁.cases
    · -- a webhook that has just begun has missed nothing
      rw [update_self] at hmissed
      obtain ⟨-, rfl⟩ | ⟨-, rfl⟩ := hrole <;> cases hmissed
    · rw [update_of_ne hwebhook] at hmissed
      obtain ⟨rfl, rfl, -⟩ | ⟨-, hreporting⟩ := hlive₂.cases
      · simp [guaranteeRow, Txn.idle] at hrow
      · exact hholds.late startedAt tx₁ tx₂ row hpaying hmissed hreporting hrow

theorem Holds.tick {elapsed : Nat} (hholds : Holds slug tenantId report webhook s γ) :
    Holds slug tenantId report webhook { s with clock := s.clock + elapsed } γ where
  named := hholds.named
  anchors := hholds.anchors
  known sid tx hlive :=
    (hholds.known sid tx hlive).congr (fun _ _ => rfl) (fun _ _ => rfl) (.inl rfl)
  roles := hholds.roles
  unstarted := hholds.unstarted
  late := hholds.late

def first : Call → Phase
  | .webhook _ _ => .unpaid
  | _ => .unmeasured

theorem keeps_holds (hne : report ≠ webhook) :
    (script slug tenantId).Keeps (server cfg)
      (together tenantId report webhook (.report rawSlug input) (.webhook provided req))
      (fun _ => first) fun _ => Holds slug tenantId report webhook where
  start _ s γ sid call t hholds hok _ hnew ht := by
    subst ht
    refine hholds.start hne hnew ?_
    obtain ⟨rfl, rfl⟩ | ⟨rfl, rfl⟩ := hok
    · exact .inl ⟨rfl, rfl⟩
    · exact .inr ⟨rfl, rfl⟩
  known _ s γ sid call o next tx hholds hsession := hholds.known sid tx ⟨call, _, hsession⟩
  run _ s γ sid choice call o next tx answer sh' tx' phase t hholds hok _ hsession _ hmove ht :=
    ht ▸ hholds.run hne hok hsession hmove
  crash _ s γ sid call p tx t hholds _ _ _ ht := ht ▸ hholds.crash
  tick _ s γ elapsed t hholds _ _ ht := ht ▸ hholds.tick

def Through (answer : Except ApiError Reply) (phase : Phase) : Prop :=
  ∀ reply, answer = .ok reply → phase.Paid ∨ phase = .reported

theorem through_of_follows {β : Type} {h : Handler β} {f : β → Reply} {P : Phase → Prop}
    (hP : ∀ phase, P phase → phase.Paid ∨ phase = .reported)
    (hfollows : Follows schema (script slug tenantId) h ∅ phase (fun _ _ => P) fun _ _ _ => True) :
    (f <$> h).run.Follows schema (script slug tenantId) ∅ phase fun answer _ => Through answer := by
  refine follows_run (.map (.mono ?_ ?_ hfollows))
  · exact fun _ _ phase' hphase _ _ => hP phase' hphase
  · intro e _ phase' _ reply hok
    cases hok

theorem holds_of_together {fans : Int} (hne : report ≠ webhook) (hrest : s.AtRest)
    (hnamed : Named slug tenantId s.committed) (hfirst : guaranteeRow tenantId s.committed = none)
    (hslug : Validation.slug rawSlug = .ok slug) (hfans : input.northStarFans = some fans)
    (hevent : BillingEvent.parse req.event = some .subscriptionStarted)
    (hpaid : Validation.slug req.tenantSlug = .ok slug)
    (hreach : Reaches (server cfg)
      (together tenantId report webhook (.report rawSlug input) (.webhook provided req)) s t) :
    ∃ γ, Holds slug tenantId report webhook t γ ∧
      (script slug tenantId).Followed (server cfg) (fun _ => Through) t γ := by
  have hidle : ∀ sid tx, ¬ s.Live sid tx := by
    rintro sid tx ⟨call, p, hsession⟩
    rw [hrest.1 sid] at hsession
    simp at hsession
  have hcalls : ∀ s sid call,
      together tenantId report webhook (.report rawSlug input) (.webhook provided req) s
        (.start sid call) →
      ((server cfg).handler call).Follows (server cfg).schema (script slug tenantId) ∅ (first call)
        fun answer _ => Through answer := by
    rintro s sid call (⟨rfl, rfl⟩ | ⟨rfl, rfl⟩)
    · exact through_of_follows (fun _ => .inr) (follows_report hslug hfans)
    · exact through_of_follows (fun _ => .inl) (follows_webhook hevent hpaid)
  have hinit : Holds slug tenantId report webhook s fun _ => .unmeasured := by
    refine ⟨hnamed, fun row startedAt hrow => ?_, fun sid tx hlive => absurd hlive (hidle sid tx),
      fun sid tx hlive => absurd hlive (hidle sid tx), fun _ => hfirst,
      fun _ _ tx' _ _ _ hlive => absurd hlive (hidle report tx')⟩
    rw [hfirst] at hrow
    simp at hrow
  exact (keeps_holds hne).reaches hcalls ⟨_, hinit, .of_atRest hrest⟩ hreach

theorem through_of_returned {reply : Reply}
    (hfollowed : (script slug tenantId).Followed (server cfg) (fun _ => Through) t γ)
    (hreturned : t.returned sid = some (.ok reply)) :
    ∃ tx, t.Live sid tx ∧ ((γ sid).Paid ∨ γ sid = .reported) := by
  obtain ⟨call, tx, hsession⟩ := Sys.returned_eq_some.mp hreturned
  have hthrough := Prog.follows_ret.mp (hfollowed sid call _ tx hsession)
  exact ⟨tx, ⟨call, _, hsession⟩, hthrough reply rfl⟩

end FirstMeasure

open FirstMeasure in
/-- **When payment and first measurement commute.** The first report with a fan level runs together
with a start for the tenant, in any interleaving, with any deaths. If the anchoring statement never
takes its snapshot while the report holds back a guarantee with another deadline, the guarantee is
due ninety days after the recorded start once both have succeeded. -/
theorem first_measure_due {cfg : Config} {slug rawSlug provided : String} {tenantId : Uuid}
    {input : RuntimeReportRequest} {fans : Int} {req : Routes.BillingWebhookRequest}
    {report webhook : Nat} {s t : State} {reply reply' : Reply} (hrest : s.AtRest)
    (hnamed : Named slug tenantId s.committed)
    (hfirst : s.committed.lookup (.guarantee tenantId) = none)
    (hslug : Validation.slug rawSlug = .ok slug) (hfans : input.northStarFans = some fans)
    (hevent : BillingEvent.parse req.event = some .subscriptionStarted)
    (hpaid : Validation.slug req.tenantSlug = .ok slug) (hne : report ≠ webhook)
    (hreach : Reaches (server cfg)
      (together tenantId report webhook (.report rawSlug input) (.webhook provided req)) s t)
    (hreport : t.returned report = some (.ok reply))
    (hwebhook : t.returned webhook = some (.ok reply')) :
    ∃ (billing : TenantBillingRow) (row : TenantGuaranteeRow),
      t.committed.lookup (.billing tenantId) = some billing ∧
      t.committed.lookup (.guarantee tenantId) = some row ∧
      row.deadline = billing.subscriptionStartedAt + days 90 := by
  obtain ⟨γ, hholds, hfollowed⟩ := holds_of_together hne hrest hnamed hfirst hslug hfans hevent hpaid
    hreach
  obtain ⟨tx, hreporting, hthrough⟩ := through_of_returned hfollowed hreport
  obtain ⟨tx', hpaying, hthrough'⟩ := through_of_returned hfollowed hwebhook
  have hreported : γ report = .reported := by
    obtain ⟨startedAt, h | h⟩ | h := hthrough
    · simpa [h, Phase.ofReport, hne] using hholds.roles report tx hreporting
    · simpa [h, Phase.ofReport, hne] using hholds.roles report tx hreporting
    · exact h
  have hpaid : (γ webhook).Paid := by
    obtain h | h := hthrough'
    · exact h
    · simpa [h, Phase.ofReport, hne.symm] using hholds.roles webhook tx' hpaying
  have hsome := (hholds.known report tx hreporting).knows
  have hknows := (hholds.known webhook tx' hpaying).knows
  rw [hreported] at hsome
  obtain ⟨row, hrow⟩ := isSome_iff_exists.mp hsome.1
  obtain ⟨startedAt, h | h⟩ := hpaid
  · rw [h] at hknows
    obtain ⟨billing, hbilling, rfl⟩ := map_eq_some_iff.mp hknows.1
    exact ⟨billing, row, hbilling, hrow, hknows.2.2 row hrow⟩
  · rw [h] at hknows
    obtain ⟨billing, hbilling, rfl⟩ := map_eq_some_iff.mp hknows.1
    obtain ⟨-, -, row, hrow, hdue⟩ := hknows
    exact ⟨billing, row, hbilling, hrow, hdue⟩

def demoTogether (turns : List (Nat × Nat)) : List (Action Key Call) :=
  .start 0 (demoReport 10 0) :: .start 1 (demoStart "sub_1" 5) ::
    turns.flatMap fun turn => List.replicate turn.2 (.run turn.1 ⟨[], .answered⟩)

def demoOutcome (t : State) : Option Bool × Option Bool × Option (Instant × Instant) :=
  ((t.returned 0).map Except.isOk, (t.returned 1).map Except.isOk,
    (demoGuarantee t).map fun found => (found.2.1, found.2.2.deadline))

open FirstMeasure in
def demoSuits (s : State) : Action Key Call → Bool
  | .run sid _ => suits 1 0 1 s sid
  | _ => true

open FirstMeasure in
theorem first_measure_due_between :
    ∃ (t : State) (reply reply' : Reply) (billing : TenantBillingRow) (row : TenantGuaranteeRow),
      Reaches (server demoConfig) (together 1 0 1 (demoReport 10 0) (demoStart "sub_1" 5)) demoState t ∧
      t.returned 0 = some (.ok reply) ∧ t.returned 1 = some (.ok reply') ∧
      t.committed.lookup (.billing 1) = some billing ∧ t.committed.lookup (.guarantee 1) = some row ∧
      row.deadline = billing.subscriptionStartedAt + days 90 := by
  have hrun : (checkedSchedule (server demoConfig) demoSuits demoState
      (demoTogether [(1, 8), (0, 9), (1, 5)])).map demoOutcome =
      some (some true, some true, some (5, 5 + days 90)) := by
    decide
  obtain ⟨t, hschedule, houtcome⟩ := map_eq_some_iff.mp hrun
  obtain ⟨hreport, hrest⟩ := Prod.mk.inj houtcome
  obtain ⟨hwebhook, -⟩ := Prod.mk.inj hrest
  obtain ⟨reply, hreport⟩ := ok_of_isOk hreport
  obtain ⟨reply', hwebhook⟩ := ok_of_isOk hwebhook
  have hreach : Reaches (server demoConfig)
      (together 1 0 1 (demoReport 10 0) (demoStart "sub_1" 5)) demoState t := by
    refine (reaches_of_checkedSchedule_mem hschedule).mono fun s a hok => ?_
    obtain ⟨hcheck, hmem, -⟩ := hok
    cases a with
    | start sid call =>
      simp only [demoTogether, List.mem_cons, Action.start.injEq, List.mem_flatMap,
        List.mem_replicate, reduceCtorEq, and_false, exists_const, or_false] at hmem
      exact hmem
    | run sid choice => exact hcheck
    | crash sid => trivial
    | tick elapsed => trivial
  obtain ⟨billing, row, hbilling, hrow, hdue⟩ := first_measure_due (demo_booted demoConfig).atRest
    demo_named rfl (show Validation.slug "acme" = .ok "acme" by decide) rfl
    (by decide) (by decide) (by decide) hreach hreport hwebhook
  exact ⟨t, reply, reply', billing, row, hreach, hreport, hwebhook, hbilling, hrow, hdue⟩

/-- The webhook anchors while the report's guarantee is uncommitted: the deadline stays where the report
put it. -/
theorem first_measure_missed :
    ∃ (t : State) (reply reply' : Reply) (billing : TenantBillingRow) (row : TenantGuaranteeRow),
      runSchedule (server demoConfig) demoState (demoTogether [(0, 7), (1, 11), (0, 2)]) = some t ∧
      t.returned 0 = some (.ok reply) ∧ t.returned 1 = some (.ok reply') ∧
      t.committed.lookup (.billing 1) = some billing ∧ t.committed.lookup (.guarantee 1) = some row ∧
      billing.subscriptionStartedAt = 5 ∧ row.deadline = days 90 := by
  have hrun : (runSchedule (server demoConfig) demoState
      (demoTogether [(0, 7), (1, 11), (0, 2)])).map demoOutcome =
      some (some true, some true, some (5, days 90)) := by
    decide
  obtain ⟨t, hschedule, houtcome⟩ := map_eq_some_iff.mp hrun
  obtain ⟨hreport, hrest⟩ := Prod.mk.inj houtcome
  obtain ⟨hwebhook, hfound⟩ := Prod.mk.inj hrest
  obtain ⟨reply, hreport⟩ := ok_of_isOk hreport
  obtain ⟨reply', hwebhook⟩ := ok_of_isOk hwebhook
  simp only [demoGuarantee, bind_eq_bind, map_bind, bind_eq_some_iff,
    Prod.mk.injEq, Function.comp_apply, map_some, some.injEq] at hfound
  obtain ⟨billing, hbilling, row, hrow, hstart, hdeadline⟩ := hfound
  exact ⟨t, reply, reply', billing, row, hschedule, hreport, hwebhook, hbilling, hrow, hstart,
    hdeadline⟩

end ControlPlane
