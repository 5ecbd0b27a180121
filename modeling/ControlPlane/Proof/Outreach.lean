import ControlPlane.Proof.Failures

/-!
# Late reports and the outreach alerts

A report merges into the gauges whether or not its heartbeat is behind. A late one leaves them alone
exactly if every gauge it carries is the stored one.
-/

namespace ControlPlane

open ReadCommitted ReadCommitted.Handler Store AList Option

namespace Outreach

structure Gauges where
  redditHalted : Option Bool
  repliesWaiting : Option Int
  cutCandidateLanes : Option Int
deriving DecidableEq

def carried (input : RuntimeReportRequest) : Gauges :=
  ⟨input.redditHalted, input.repliesWaiting, input.cutCandidateLanes⟩

def stored (db : AList Row) (tenantId : Uuid) : Gauges :=
  (db.lookup (.outreachAlert tenantId)).elim ⟨none, none, none⟩ fun row : OutreachAlertRow =>
    ⟨row.redditHalted, row.repliesWaiting, row.cutCandidateLanes⟩

def Gauges.over (new old : Gauges) : Gauges :=
  ⟨new.redditHalted.or old.redditHalted, new.repliesWaiting.or old.repliesWaiting,
    new.cutCandidateLanes.or old.cutCandidateLanes⟩

namespace Gauges

def Repeats (new old : Gauges) : Prop :=
  (new.redditHalted = none ∨ new.redditHalted = old.redditHalted) ∧
    (new.repliesWaiting = none ∨ new.repliesWaiting = old.repliesWaiting) ∧
    (new.cutCandidateLanes = none ∨ new.cutCandidateLanes = old.cutCandidateLanes)

def Raises (new old : Gauges) : NotifierEvent → Prop
  | .outreachRedditHalted => new.redditHalted = some true ∧ old.redditHalted ≠ some true
  | .outreachRepliesWaiting => ∃ waiting, new.repliesWaiting = some waiting ∧
      old.repliesWaiting.getD 0 < waiting
  | .outreachLanesCut => ∃ lanes, new.cutCandidateLanes = some lanes ∧
      old.cutCandidateLanes.getD 0 < lanes
  | _ => False

variable {new old : Gauges}

theorem over_eq_iff : new.over old = old ↔ new.Repeats old := by
  have hgauge {α : Type} (x y : Option α) : x.or y = y ↔ x = none ∨ x = y := by
    cases x <;> simp
  obtain ⟨halted, waiting, lanes⟩ := old
  simp only [Gauges.over, Repeats, Gauges.mk.injEq, hgauge]

theorem Repeats.not_raises (hrepeats : new.Repeats old) (event : NotifierEvent) :
    ¬ new.Raises old event := by
  obtain ⟨hhalted, hwaiting, hlanes⟩ := hrepeats
  have hrise {x y : Option Int} (h : x = none ∨ x = y) : ¬ ∃ n, x = some n ∧ y.getD 0 < n := by
    rintro ⟨n, rfl, hlt⟩
    obtain h | rfl := h
    · cases h
    · exact absurd hlt (Int.lt_irrefl n)
  cases event with
  | outreachRedditHalted =>
    rintro ⟨hnew, hold⟩
    obtain h | h := hhalted <;> simp_all
  | outreachRepliesWaiting => exact hrise hwaiting
  | outreachLanesCut => exact hrise hlanes
  | _ => exact fun h => h

end Gauges

variable {cfg : Config} {tenantId : Uuid} {db w : AList Row} {v : View Row Upstream}
  {raised : NotifierEvent → Prop} {event : NotifierEvent} {payload : Json}
  {Q : Unit → View Row Upstream → Prop} {db' : AList Row} {now : Instant}

def Enqueued (db db' : AList Row) (event : NotifierEvent) (channelId id : Uuid) : Prop :=
  db.lookup (.outbox id) = none ∧ ∃ row : OutboxRow, db'.lookup (.outbox id) = some row ∧
    row.event = event ∧ row.channelId = channelId

/-- The raised events are enqueued once for each channel that subscribes, and no others are. -/
structure Told (tenantId : Uuid) (raised : NotifierEvent → Prop) (db db' : AList Row) : Prop where
  kept : ∀ id row, db.lookup (.outbox id) = some row → db'.lookup (.outbox id) = some row
  each : ∀ event, raised event → ∀ channel ∈ channelsOf db,
    subscribes tenantId event channel = true → ∃! id, Enqueued db db' event channel.id id
  only : ∀ event, ¬ raised event → ∀ channelId id, ¬ Enqueued db db' event channelId id

theorem Told.refl : Told tenantId (fun _ => False) db db where
  kept _ _ hrow := hrow
  each _ h := h.elim
  only _ _ _ id := by
    rintro ⟨hnone, row, hrow, -⟩
    simp [hnone] at hrow

theorem Told.added {channels : List NotifierChannelRow} (htold : Told tenantId raised db w)
    (hnew : ¬ raised event) (hadded : Added event channels w db')
    (hchannels : ∀ channel ∈ channelsOf db, subscribes tenantId event channel = true →
      channel ∈ channels) : Told tenantId (fun e => raised e ∨ e = event) db db' := by
  have hcases {e : NotifierEvent} {channelId id : Uuid} (h : Enqueued db db' e channelId id) :
      Enqueued db w e channelId id ∨ w.lookup (.outbox id) = none ∧ e = event := by
    obtain ⟨hnone, row, hrow, hevent, hid⟩ := h
    cases hmid : w.lookup (.outbox id) with
    | none => exact .inr ⟨rfl, hevent ▸ (hadded.only id row hmid hrow).1⟩
    | some row' =>
      rw [hadded.kept _ row' hmid, some.injEq] at hrow
      exact .inl ⟨hnone, row', hmid, hrow ▸ hevent, hrow ▸ hid⟩
  refine ⟨fun id row hrow => hadded.kept _ _ (htold.kept id row hrow), ?_, ?_⟩
  · rintro e (hraised | rfl) channel hmem hsubscribes
    · obtain ⟨id, ⟨hnone, row, hrow, hrest⟩, hunique⟩ := htold.each e hraised channel hmem hsubscribes
      refine ⟨id, ⟨hnone, row, hadded.kept (.outbox id) row hrow, hrest⟩, fun id' hid' => ?_⟩
      obtain hbefore | ⟨-, rfl⟩ := hcases hid'
      · exact hunique id' hbefore
      · exact absurd hraised hnew
    · obtain ⟨id, row, hmid, hrow, hid⟩ := hadded.each channel (hchannels channel hmem hsubscribes)
      have hnone : db.lookup (.outbox id) = none := by
        cases hdb : db.lookup (.outbox id) with
        | none => rfl
        | some old => simp [htold.kept id old hdb] at hmid
      have hevent := (hadded.only id row hmid hrow).1
      refine ⟨id, ⟨hnone, row, hrow, hevent, hid⟩, fun id' hid' => ?_⟩
      obtain hbefore | ⟨hmid', -⟩ := hcases hid'
      · exact absurd hbefore (htold.only e hnew _ _)
      · obtain ⟨-, row', hrow', -, hchannel⟩ := hid'
        exact hadded.once id' id row' row hmid' hmid hrow' hrow (hchannel.trans hid.symm)
  · intro e hnot channelId id h
    rw [not_or] at hnot
    obtain hbefore | ⟨-, heq⟩ := hcases h
    · exact htold.only e hnot.1 channelId id hbefore
    · exact hnot.2 heq

/-- A report's transaction so far: the rows it has written besides the outbox, and what it has
enqueued. -/
structure Underway (tenantId : Uuid) (db w : AList Row) (raised : NotifierEvent → Prop)
    (v : View Row Upstream) : Prop where
  committed : v.committed = db
  rows : ∀ key, (∀ id, key ≠ .outbox id) → v.seen.lookup key = w.lookup key
  told : Told tenantId raised db v.seen

theorem seen_put {key : Key} {row : Row key} : (v.put key row).seen = v.seen.insert key row :=
  insert_union.symm

theorem Underway.put (hv : Underway tenantId db w raised v) (key : Key) (row : Row key)
    (hkey : ∀ id, key ≠ .outbox id) :
    Underway tenantId db (w.insert key row) raised (v.put key row) := by
  have houtbox (id : Uuid) : (v.put key row).seen.lookup (.outbox id) = v.seen.lookup (.outbox id) := by
    rw [seen_put, lookup_insert_ne (hkey id).symm]
  refine ⟨hv.committed, fun k hk => ?_, ?_, ?_, ?_⟩
  · by_cases heq : k = key
    · subst heq
      rw [seen_put, lookup_insert, lookup_insert]
    · rw [seen_put, lookup_insert_ne heq, lookup_insert_ne heq, hv.rows k hk]
  · intro id row hrow
    rw [houtbox, hv.told.kept id row hrow]
  · simpa only [Enqueued, houtbox] using hv.told.each
  · simpa only [Enqueued, houtbox] using hv.told.only

theorem serial_enqueueEach {db₀ : AList Row} (channels : List NotifierChannelRow) :
    ∀ {told : List NotifierChannelRow} {v : View Row Upstream},
      ((told ++ channels).map (·.id)).Nodup → v.committed = db → Added event told db₀ v.seen →
      (∀ v' all, v'.committed = db → (∀ channel ∈ told ++ channels, channel ∈ all) →
        Added event all db₀ v'.seen → Q () v') →
      serial schema (enqueueEach event payload now channels) v Q fun _ v' => v'.committed = db := by
  induction channels with
  | nil => exact fun _ hdb hadded hQ => serial_pure.mpr (hQ _ _ hdb (by simp) hadded)
  | cons channel rest ih =>
    intro told v hnodup hdb hadded hQ
    simp only [enqueueEach, serial_bind, serial_fresh, serial_insert, serial_ensure]
    intro id _
    refine ⟨fun _ hnew => ⟨fun _ => ?_, fun _ => hdb⟩, fun _ => ⟨fun h => by simp at h, fun _ => hdb⟩,
      fun _ => hdb⟩
    obtain ⟨hnodup', hadded'⟩ := hadded.enqueue hnodup (lookup_eq_none.mpr hnew)
    refine ih hnodup' hdb (seen_put ▸ hadded') fun v' all hdb' hall => ?_
    exact hQ v' all hdb' fun known hmem => hall known (List.perm_middle.mem_iff.mp hmem)

section Notify

variable (hv : Underway tenantId db w raised v) (hkeyed : KeyedChannels db)
  (hsame : SameChannels db w) (hnew : ¬ raised event)
include hv hkeyed hsame hnew

theorem serial_notify
    (hQ : ∀ v', Underway tenantId db w (fun e => raised e ∨ e = event) v' → Q () v') :
    serial schema (enqueueEventTx tenantId event payload) v Q fun _ v' => v'.committed = db := by
  have hsame' : SameChannels db v.seen := fun id => (hv.rows _ (by simp)).trans (hsame id)
  simp only [enqueueEventTx, serial_bind, serial_sqlNow, serial_snapshot]
  intro now
  have hnodup : (([] ++ (channelsOf v.seen).filter (subscribes tenantId event)).map
      NotifierChannelRow.id).Nodup := (hsame'.keyed hkeyed).nodup.sublist (List.filter_sublist.map _)
  refine serial_enqueueEach _ hnodup hv.committed .nil fun v' all hdb hall hadded => hQ v' ⟨hdb, ?_, ?_⟩
  · exact fun key hkey => (hadded.others key hkey).trans (hv.rows key hkey)
  · refine hv.told.added hnew hadded fun channel hmem hsubscribes => hall channel ?_
    exact List.mem_filter.mpr ⟨hsame'.mem_iff.mpr hmem, hsubscribes⟩

theorem serial_notify_if {condition : Prop} [Decidable condition]
    (hQ : ∀ v', Underway tenantId db w (fun e => raised e ∨ e = event ∧ condition) v' → Q () v') :
    serial schema (whenever condition (enqueueEventTx tenantId event payload)) v Q
      fun _ v' => v'.committed = db := by
  rw [serial_whenever]
  constructor
  · intro hcondition
    refine serial_notify hv hkeyed hsame hnew fun v' hv' => hQ v' ?_
    simpa only [hcondition, and_true] using hv'
  · intro hcondition
    refine hQ v ?_
    simpa only [hcondition, and_false, or_false] using hv

theorem serial_notify_some {α : Type} {value : Option α} {condition : α → Prop}
    [DecidablePred condition] {payload : α → Json}
    (hQ : ∀ v', Underway tenantId db w
      (fun e => raised e ∨ e = event ∧ ∃ a, value = some a ∧ condition a) v' → Q () v') :
    serial schema (forSome value fun a => whenever (condition a)
      (enqueueEventTx tenantId event (payload a))) v Q fun _ v' => v'.committed = db := by
  cases value with
  | none => exact serial_pure.mpr (hQ v (by simpa using hv))
  | some a => exact serial_notify_if hv hkeyed hsame hnew fun v' hv' => hQ v' (by simpa using hv')

end Notify

variable {input : RuntimeReportRequest}

def isOutreach : NotifierEvent → Prop
  | .outreachRedditHalted | .outreachRepliesWaiting | .outreachLanesCut => True
  | _ => False

theorem Underway.engage (hv : Underway tenantId db w raised v) :
    Underway tenantId db w raised v.engage := ⟨hv.committed, hv.rows, hv.told⟩

theorem stored_congr
    (hsame : db'.lookup (.outreachAlert tenantId) = db.lookup (.outreachAlert tenantId)) :
    stored db' tenantId = stored db tenantId := by
  rw [stored, hsame, stored]

theorem serial_raiseOutreachAlerts (hv : Underway tenantId db w raised v)
    (hkeyed : KeyedChannels db) (hsame : SameChannels db w)
    (hsilent : ∀ event, isOutreach event → ¬ raised event)
    (hQ : ∀ v' w' raised', Underway tenantId db w' raised' v' →
      (∀ key, key ≠ .outreachAlert tenantId → w'.lookup key = w.lookup key) →
      stored w' tenantId = (carried input).over (stored w tenantId) →
      (∀ event, raised' event ↔ raised event ∨ (carried input).Raises (stored w tenantId) event) →
      Q () v') :
    serial schema (raiseOutreachAlerts tenantId input now) v Q fun _ v' => v'.committed = db := by
  have hprevious : v.seen.lookup (.outreachAlert tenantId) = w.lookup (.outreachAlert tenantId) :=
    hv.rows _ (by simp)
  unfold raiseOutreachAlerts
  split_ifs with hnone
  · obtain ⟨hhalted, hwaiting, hlanes⟩ := hnone
    have hcarried : (carried input).Repeats (stored w tenantId) :=
      ⟨.inl hhalted, .inl hwaiting, .inl hlanes⟩
    refine serial_pure.mpr (hQ v w raised hv (fun _ _ => rfl)
      (Gauges.over_eq_iff.mpr hcarried).symm fun event => ?_)
    simp [hcarried.not_raises event]
  simp only [serial_bind, serial_lock, serial_upsert, hprevious]
  refine ⟨fun _ _ => ?_, fun _ _ => hv.committed, fun _ => hv.committed⟩
  generalize hrow : (v.engage.seen.lookup (.outreachAlert tenantId)).elim _ _ = row
  have hv₁ := hv.engage.put (.outreachAlert tenantId) row (by simp)
  have hsame₁ : SameChannels db (w.insert (.outreachAlert tenantId) row) := fun id => by
    rw [lookup_insert_ne (by simp), hsame id]
  refine serial_notify_if hv₁ hkeyed hsame₁ (hsilent .outreachRedditHalted trivial) fun v₂ hv₂ => ?_
  have hwaiting := hsilent .outreachRepliesWaiting trivial
  have hlanes := hsilent .outreachLanesCut trivial
  refine serial_notify_some hv₂ hkeyed hsame₁ (by simp [hwaiting]) fun v₃ hv₃ => ?_
  refine serial_notify_some hv₃ hkeyed hsame₁ (by simp [hlanes]) fun v₄ hv₄ => ?_
  refine hQ v₄ _ _ hv₄ (fun key hkey => lookup_insert_ne hkey) ?_ fun event => ?_
  · rw [View.engage_seen, hprevious] at hrow
    rw [stored, lookup_insert, elim_some, ← hrow, stored]
    cases (w.lookup (.outreachAlert tenantId) : Option OutreachAlertRow) with
    | none => simp [carried, Gauges.over]
    | some previous => rfl
  · unfold stored
    cases (w.lookup (.outreachAlert tenantId) : Option OutreachAlertRow) <;> cases event <;>
      simp [Gauges.Raises, carried]

def heartbeat (db : AList Row) (tenantId : Uuid) : Option Instant :=
  (runtimeRow db tenantId).bind (·.lastHeartbeatAt)

def late (db : AList Row) (tenantId : Uuid) (input : RuntimeReportRequest) : Bool :=
  !notOlder input.lastHeartbeatAt (heartbeat db tenantId)

/-- Of the outreach events exactly those that are raised are enqueued, once for each subscriber. -/
def Notified (tenantId : Uuid) (raises : NotifierEvent → Prop) (db db' : AList Row) : Prop :=
  ∀ event, isOutreach event →
    (raises event → ∀ channel ∈ channelsOf db, subscribes tenantId event channel = true →
      ∃! id, Enqueued db db' event channel.id id) ∧
    (¬ raises event → ∀ channelId id, ¬ Enqueued db db' event channelId id)

structure Effect (tenantId : Uuid) (input : RuntimeReportRequest) (db db' : AList Row) : Prop where
  tenants : ∀ id : Uuid, db'.lookup (.tenant id) = db.lookup (.tenant id)
  channels : SameChannels db db'
  heartbeat : heartbeat db' tenantId =
    if late db tenantId input then heartbeat db tenantId
    else input.lastHeartbeatAt.or (heartbeat db tenantId)
  gauges : stored db' tenantId = (carried input).over (stored db tenantId)
  notified : Notified tenantId ((carried input).Raises (stored db tenantId)) db db'

def isHealth : NotifierEvent → Prop
  | .runtimeDegraded | .runtimeStale | .runtimeRecovered => True
  | _ => False

theorem isHealth_of_healthEvent {firstReport : Bool} {health : RuntimeHealth}
    (hevent : healthEvent firstReport health = some event) : isHealth event := by
  cases health <;> simp [healthEvent] at hevent
  · exact hevent.2 ▸ trivial
  · exact hevent ▸ trivial
  · exact hevent ▸ trivial

theorem heartbeat_merged {old : Option RuntimeStatusRow}
    (hold : db.lookup (.runtime tenantId) = old) :
    (old.elim (reportedRow tenantId input now) (mergeReport input now)).lastHeartbeatAt =
      if late db tenantId input then heartbeat db tenantId
      else input.lastHeartbeatAt.or (heartbeat db tenantId) := by
  have hbeat : heartbeat db tenantId = old.bind (·.lastHeartbeatAt) := by
    rw [heartbeat, runtimeRow, hold]
  rw [late, hbeat]
  cases old with
  | none => cases hinput : input.lastHeartbeatAt <;> simp [notOlder, reportedRow, hinput]
  | some row =>
    by_cases hnewer : notOlder input.lastHeartbeatAt row.lastHeartbeatAt = true <;>
      simp [mergeReport, hnewer]

theorem serial_reportRuntime {slug : String} {up : Upstream} {n : Nat}
    (hnamed : Named slug tenantId db) (hkeyed : KeyedChannels db) :
    serial schema (Store.reportRuntime cfg slug input) (.between db up n)
      (fun _ v => Effect tenantId input db v.committed) fun _ v => v.committed = db := by
  refine serial_bind.mpr (serial_tenantBySlug (fun _ => rfl) fun tenant utc htenant => ?_)
  rw [show (summary cfg (View.between db up n).seen utc tenant).tenant.id = tenantId from
    hnamed.id_eq htenant]
  simp only [serial_inTransaction, serial_bind, serial_sqlNow, serial_utcNow, serial_upsert,
    serial_pure]
  refine fun now => ⟨fun _ _ => ?_, fun _ _ => rfl, fun _ => rfl⟩
  generalize hrow : ((View.between db up n).seen.lookup (.runtime tenantId)).elim _ _ = row
  have hstart : Underway tenantId db db (fun _ => False) (.between db up n) :=
    ⟨rfl, fun _ _ => by rw [View.between_seen], by rw [View.between_seen]; exact .refl⟩
  have hv₁ := hstart.put (.runtime tenantId) row (by simp)
  -- the first report with a fan level freezes the guarantee, which nothing here reads
  refine serial_mono (Q := fun _ v' => ∃ w, Underway tenantId db w (fun _ => False) v' ∧
    ∀ key, key ≠ .guarantee tenantId → w.lookup key = (db.insert (.runtime tenantId) row).lookup key)
    (fun _ v₂ hv₂ utc => ?_) (fun _ _ hdb => hdb) ?_
  · obtain ⟨w, hv₂, hw⟩ := hv₂
    have hsame : SameChannels db w := fun id => by
      rw [hw _ (by simp), lookup_insert_ne (by simp)]
    refine serial_mono (Q := fun _ v' => ∃ raised, Underway tenantId db w raised v' ∧
      ∀ event, raised event → isHealth event) (fun _ v₃ hv₃ => ?_) (fun _ _ hdb => hdb) ?_
    · obtain ⟨raised, hv₃, hhealth⟩ := hv₃
      have hsilent (event : NotifierEvent) (houtreach : isOutreach event) : ¬ raised event := fun h => by
        have hevent := hhealth event h
        cases event <;> first | exact houtreach | exact hevent
      refine serial_raiseOutreachAlerts hv₃ hkeyed hsame hsilent
        fun v₄ w₄ raised₄ hv₄ hw₄ hgauges hraised₄ => ?_
      have hsame₄ : SameChannels db w₄ := fun id => (hw₄ _ (by simp)).trans (hsame id)
      refine serial_notify_if hv₄ hkeyed hsame₄ ?_ fun v₅ hv₅ => ?_
      · rw [hraised₄]
        exact fun h => h.elim (hhealth _) fun h => h
      have hread (key : Key) (houtbox : ∀ id, key ≠ .outbox id) (halert : key ≠ .outreachAlert tenantId)
          (hguarantee : key ≠ .guarantee tenantId) :
          v₅.seen.lookup key = (db.insert (.runtime tenantId) row).lookup key := by
        rw [hv₅.rows key houtbox, hw₄ key halert, hw key hguarantee]
      have hstored : stored w tenantId = stored db tenantId :=
        stored_congr (by rw [hw _ (by simp), lookup_insert_ne (by simp)])
      rw [hstored] at hgauges hraised₄
      refine ⟨fun id => ?_, fun id => (hv₅.rows _ (by simp)).trans (hsame₄ id), ?_, ?_, ?_⟩
      · exact (hread _ (by simp) (by simp) (by simp)).trans (lookup_insert_ne (by simp))
      · have hruntime : runtimeRow v₅.seen tenantId = some row :=
          (hread _ (by simp) (by simp) (by simp)).trans (lookup_insert _)
        rw [heartbeat, View.settled, hruntime, bind_some, ← hrow]
        exact heartbeat_merged rfl
      · exact (stored_congr (hv₅.rows _ (by simp))).trans hgauges
      · intro event houtreach
        have hiff (p : Prop) : (raised₄ event ∨ event = .approvalsPending ∧ p) ↔
            (carried input).Raises (stored db tenantId) event := by
          rw [hraised₄]
          have hunraised := hsilent event houtreach
          cases event <;> first | exact houtreach.elim | simp [hunraised]
        exact ⟨fun hraises => hv₅.told.each event ((hiff _).mpr hraises),
          fun hquiet => hv₅.told.only event fun h => hquiet ((hiff _).mp h)⟩
    · rw [serial_whenever]
      refine ⟨fun _ => ?_, fun _ => ⟨_, hv₂, fun _ h => h.elim⟩⟩
      cases hevent : healthEvent _ (RuntimeHealth.classify (some row) utc _) with
      | none => exact serial_pure.mpr ⟨_, hv₂, fun _ h => h.elim⟩
      | some event =>
        refine serial_notify hv₂ hkeyed hsame (fun h => h) fun v' hv' => ⟨_, hv', ?_⟩
        rintro e (h | rfl)
        · exact h.elim
        · exact isHealth_of_healthEvent hevent
  · cases input.northStarFans with
    | none => exact serial_pure.mpr ⟨_, hv₁, fun _ _ => rfl⟩
    | some fans =>
      simp only [forSome, serial_bind, serial_insert, serial_pure]
      exact ⟨fun _ _ => ⟨_, hv₁.put _ _ (by simp), fun key hkey => lookup_insert_ne hkey⟩,
        fun _ => ⟨_, hv₁, fun _ _ => rfl⟩, fun _ => rfl⟩

variable {s t u : State} {slug : String} {served : List (Call × Except ApiError Reply)}
  {rawSlug : String} {answer : Except ApiError Reply}

structure Watch where
  heartbeat : Option Instant
  gauges : Gauges

def watch (db : AList Row) (tenantId : Uuid) : Watch := ⟨heartbeat db tenantId, stored db tenantId⟩

/-- What a report is meant to do: nothing at all if it is late. -/
def Watch.after (w : Watch) (input : RuntimeReportRequest) : Watch :=
  if notOlder input.lastHeartbeatAt w.heartbeat then
    ⟨input.lastHeartbeatAt.or w.heartbeat, (carried input).over w.gauges⟩
  else w

def Watch.following (w : Watch) : List (Call × Except ApiError Reply) → Watch
  | [] => w
  | (.report _ input, .ok _) :: earlier => (w.following earlier).after input
  | _ :: earlier => w.following earlier

def ofTenant (slug : String) (_ : State) (call : Call) (_ : Except ApiError Reply) : Prop :=
  ∃ rawSlug input, call = .report rawSlug input ∧ Validation.slug rawSlug = .ok slug

/-- Only reports of the tenant are made, and the late ones repeat the stored gauges. -/
def repeating (slug : String) (tenantId : Uuid) (t : State) (call : Call)
    (_ : Except ApiError Reply) : Prop :=
  ∃ rawSlug input, call = .report rawSlug input ∧ Validation.slug rawSlug = .ok slug ∧
    (late t.committed tenantId input = true → (carried input).Repeats (stored t.committed tenantId))

structure Ready (slug : String) (tenantId : Uuid) (t : State) : Prop where
  named : Named slug tenantId t.committed
  keyed : KeyedChannels t.committed
  quiet : Quiescent t.toShared

theorem effect_of_serves (hready : Ready slug tenantId t) (hslug : Validation.slug rawSlug = .ok slug)
    (hserves : Serves (server cfg) t (.report rawSlug input) answer u) :
    Quiescent u.toShared ∧
      ((∃ reply, answer = .ok reply) ∧ Effect tenantId input t.committed u.committed ∨
        (∃ e, answer = .error e) ∧ u.committed = t.committed) := by
  refine serves_post hserves (Q := fun answer db _ =>
    (∃ reply, answer = .ok reply) ∧ Effect tenantId input t.committed db ∨
      (∃ e, answer = .error e) ∧ db = t.committed) hready.quiet (Nat.zero_le _) ?_
  rw [handle, serial_map]
  simp only [Routes.reportRuntime, serial_bind, serial_require_ok, serial_utcNow, hslug]
  refine fun now => serial_require.mpr ⟨fun _ _ => ?_, fun e _ => .inr ⟨⟨e, rfl⟩, rfl⟩⟩
  exact serial_mono (fun reply _ heffect => .inl ⟨⟨_, rfl⟩, heffect⟩)
    (fun e _ hdb => .inr ⟨⟨e, rfl⟩, hdb⟩) (serial_reportRuntime hready.named hready.keyed)

theorem Ready.serves (hready : Ready slug tenantId t) (hslug : Validation.slug rawSlug = .ok slug)
    (hserves : Serves (server cfg) t (.report rawSlug input) answer u) : Ready slug tenantId u := by
  obtain ⟨hquiet, ⟨-, heffect⟩ | ⟨-, hsame⟩⟩ := effect_of_serves hready hslug hserves
  · exact ⟨hready.named.congr heffect.tenants, heffect.channels.keyed hready.keyed, hquiet⟩
  · exact ⟨hsame ▸ hready.named, hsame ▸ hready.keyed, hquiet⟩

theorem ready_of_sequence (hready : Ready slug tenantId s)
    (hseq : Sequence (server cfg) (ofTenant slug) s served t) : Ready slug tenantId t := by
  induction hseq with
  | nil => exact hready
  | cons _ hok hserves ih =>
    obtain ⟨rawSlug, input, rfl, hslug⟩ := hok
    exact ih.serves hslug hserves

theorem watch_of_effect (heffect : Effect tenantId input db db')
    (hrepeats : late db tenantId input = true → (carried input).Repeats (stored db tenantId)) :
    watch db' tenantId = (watch db tenantId).after input := by
  have hlater : notOlder input.lastHeartbeatAt (heartbeat db tenantId) = !late db tenantId input := by
    simp [late]
  unfold Watch.after watch
  rw [hlater, heffect.gauges, heffect.heartbeat]
  cases hlate : late db tenantId input with
  | false => rfl
  | true =>
    rw [Gauges.over_eq_iff.mpr (hrepeats hlate)]
    rfl

/-- If the late reports repeat what is stored, the gauges are those of the reports that came in time. -/
theorem watch_of_sequence (hready : Ready slug tenantId s)
    (hseq : Sequence (server cfg) (repeating slug tenantId) s served t) :
    Ready slug tenantId t ∧
      watch t.committed tenantId = (watch s.committed tenantId).following served := by
  induction hseq with
  | nil => exact ⟨hready, rfl⟩
  | cons _ hok hserves ih =>
    obtain ⟨rawSlug, input, rfl, hslug, hrepeats⟩ := hok
    obtain ⟨hready', hwatch⟩ := ih
    refine ⟨hready'.serves hslug hserves, ?_⟩
    obtain ⟨-, ⟨⟨reply, rfl⟩, heffect⟩ | ⟨⟨e, rfl⟩, hsame⟩⟩ :=
      effect_of_serves hready' hslug hserves
    · rw [Watch.following, ← hwatch, watch_of_effect heffect hrepeats]
    · rw [Watch.following, ← hwatch, hsame]
      simp

def Undisturbed (tenantId : Uuid) (db db' : AList Row) : Prop :=
  stored db' tenantId = stored db tenantId ∧
    ∀ event, isOutreach event → ∀ channelId id, ¬ Enqueued db db' event channelId id

theorem Effect.undisturbed_iff (heffect : Effect tenantId input db db') :
    Undisturbed tenantId db db' ↔ (carried input).Repeats (stored db tenantId) := by
  rw [Undisturbed, heffect.gauges, Gauges.over_eq_iff]
  refine and_iff_left_of_imp fun hrepeats event houtreach => ?_
  exact (heffect.notified event houtreach).2 (hrepeats.not_raises event)

/-- **When late reports do not disturb the alerts.** Reports are served in any order. A late one
leaves the gauges and enqueues nothing exactly if it repeats the stored gauges; one in time leaves
its gauges and notifies once of each that rises; if all late ones repeat, the stored gauges are
those of the reports in time. -/
theorem late_reports_undisturbing_iff {rawSlug : String} {reply : Reply} (hboot : Booted cfg s)
    (hnamed : Named slug tenantId s.committed) (hkeyed : KeyedChannels s.committed)
    (hseq : Sequence (server cfg) (ofTenant slug) s served t)
    (hslug : Validation.slug rawSlug = .ok slug)
    (hserves : Serves (server cfg) t (.report rawSlug input) (.ok reply) u) :
    (Sequence (server cfg) (repeating slug tenantId) s served t →
      watch t.committed tenantId = (watch s.committed tenantId).following served) ∧
    (late t.committed tenantId input = false →
      watch u.committed tenantId = (watch t.committed tenantId).after input ∧
      Notified tenantId ((carried input).Raises (stored t.committed tenantId)) t.committed
        u.committed) ∧
    (late t.committed tenantId input = true → (Undisturbed tenantId t.committed u.committed ↔
        (carried input).Repeats (stored t.committed tenantId))) := by
  have hready : Ready slug tenantId s := ⟨hnamed, hkeyed, quiescent_of_booted hboot⟩
  have hready' := ready_of_sequence hready hseq
  have heffect : Effect tenantId input t.committed u.committed := by
    obtain ⟨-, ⟨-, heffect⟩ | ⟨⟨e, he⟩, -⟩⟩ :=
      effect_of_serves hready' hslug hserves
    · exact heffect
    · cases he
  refine ⟨fun hrepeating => (watch_of_sequence hready hrepeating).2, fun hlate => ⟨?_, ?_⟩, fun _ => ?_⟩
  · exact watch_of_effect heffect fun h => by simp [hlate] at h
  · exact heffect.notified
  · exact heffect.undisturbed_iff

def replies (waiting : Int) (heartbeat : Instant) : RuntimeReportRequest where
  apiHealthy := none
  workerHealthy := none
  schemaVersion := none
  deployedSha := none
  outboxPending := none
  queueLag := none
  awaitingApproval := none
  northStarFans := none
  redditHalted := none
  repliesWaiting := some waiting
  cutCandidateLanes := none
  lastHeartbeatAt := some heartbeat

def demoLate (waiting : Int) (steps : Nat) : Option (State × State) :=
  (runSchedule (server demoConfig) demoNotified (alone 0 (.report "acme" (replies 3 0)) 14)).bind
    fun t => (runSchedule (server demoConfig) t
      (alone 1 (.report "acme" (replies waiting (-5))) steps)).map (t, ·)

def lateStored (waiting : Int) (p : State × State) : Bool :=
  (p.1.returned 0).isSome && (p.2.returned 1).map Except.isOk = some true &&
    late p.1.committed 1 (replies waiting (-5))

theorem serves_of_demoLate {waiting : Int} {steps : Nat} (hdemo : demoLate waiting steps = some (t, u))
    (hstored : lateStored waiting (t, u) = true) :
    late t.committed 1 (replies waiting (-5)) = true ∧
      (∃ served, Sequence (server demoConfig) (ofTenant "acme") demoNotified served t) ∧
      ∃ reply, Serves (server demoConfig) t (.report "acme" (replies waiting (-5))) (.ok reply) u := by
  obtain ⟨t', hfirst, hmap⟩ := bind_eq_some_iff.mp hdemo
  obtain ⟨u', hsecond, heq⟩ := map_eq_some_iff.mp hmap
  obtain ⟨rfl, rfl⟩ := Prod.mk.inj heq
  simp only [lateStored, Bool.and_eq_true, decide_eq_true_eq] at hstored
  obtain ⟨⟨hanswered, hok⟩, hlate⟩ := hstored
  obtain ⟨answer, hanswer⟩ := isSome_iff_exists.mp hanswered
  obtain ⟨reply, hreply⟩ := ok_of_isOk hok
  exact ⟨hlate, ⟨_, .cons .nil ⟨"acme", _, rfl, rfl⟩ (serves_of_alone hfirst hanswer)⟩, reply,
    serves_of_alone hsecond hreply⟩

theorem demoNotified_named : Named "acme" 1 demoNotified.committed :=
  demo_named.congr fun id => lookup_insert_ne (by simp)

theorem late_reports_undisturbing_iff_repeated : ∃ t u : State,
    (∃ served, Sequence (server demoConfig) (ofTenant "acme") demoNotified served t) ∧
      late t.committed 1 (replies 3 (-5)) = true ∧ Undisturbed 1 t.committed u.committed := by
  have hrun : (demoLate 3 10).any (fun p => lateStored 3 p &&
      (carried (replies 3 (-5))).over (stored p.1.committed 1) = stored p.1.committed 1) = true := by
    decide
  obtain ⟨⟨t, u⟩, hdemo, hfacts⟩ := (any_eq_true _ _).mp hrun
  rw [Bool.and_eq_true, decide_eq_true_eq] at hfacts
  obtain ⟨hlate, ⟨served, hseq⟩, reply, hserves⟩ := serves_of_demoLate hdemo hfacts.1
  have hiff := (late_reports_undisturbing_iff (demoNotified_booted demoConfig) demoNotified_named
    demoNotified_keyed hseq (show Validation.slug "acme" = .ok "acme" from rfl) hserves).2.2 hlate
  exact ⟨t, u, ⟨served, hseq⟩, hlate, hiff.mpr (Gauges.over_eq_iff.mp hfacts.2)⟩

/-- A late report of seven replies replaces the gauge and is notified. -/
theorem late_report_raises : ∃ t u : State,
    (∃ served, Sequence (server demoConfig) (ofTenant "acme") demoNotified served t) ∧
      (∃ reply, Serves (server demoConfig) t (.report "acme" (replies 7 (-5))) (.ok reply) u) ∧
      late t.committed 1 (replies 7 (-5)) = true ∧
      (stored t.committed 1).repliesWaiting = some 3 ∧
      (stored u.committed 1).repliesWaiting = some 7 ∧
      Enqueued t.committed u.committed .outreachRepliesWaiting 3 101 := by
  have hrun : (demoLate 7 14).any (fun p => lateStored 7 p &&
      (stored p.1.committed 1).repliesWaiting = some 3 &&
      (stored p.2.committed 1).repliesWaiting = some 7 &&
      (p.1.committed.lookup (.outbox 101)).isNone &&
      (p.2.committed.lookup (.outbox 101)).any fun row : OutboxRow =>
        row.event = .outreachRepliesWaiting && row.channelId = 3) = true := by decide
  obtain ⟨⟨t, u⟩, hdemo, hfacts⟩ := (any_eq_true _ _).mp hrun
  simp only [Bool.and_eq_true, decide_eq_true_eq, isNone_iff_eq_none] at hfacts
  obtain ⟨⟨⟨⟨hstored, hbefore⟩, hafter⟩, hnone⟩, henqueued⟩ := hfacts
  obtain ⟨hlate, hseq, hserves⟩ := serves_of_demoLate hdemo hstored
  obtain ⟨row, hrow, hrest⟩ := (any_eq_true _ _).mp henqueued
  simp only [Bool.and_eq_true, decide_eq_true_eq] at hrest
  exact ⟨t, u, hseq, hserves, hlate, hbefore, hafter, hnone, row, hrow, hrest⟩

end Outreach

end ControlPlane
