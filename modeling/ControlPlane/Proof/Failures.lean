import ControlPlane.Proof.Fencing
import ControlPlane.Proof.Scripts
import ControlPlane.ReadCommitted.Holding

/-!
# Whether a failed job is announced

A job becomes failed by its worker's report or when a claim finds its last lease has run out. Only
the report tells the channels.
-/

namespace ControlPlane

open ReadCommitted ReadCommitted.Handler Store List Option

variable {db : AList Row} {channel : NotifierChannelRow} {db' : AList Row}

theorem mem_channelsOf :
    channel ∈ channelsOf db ↔ ∃ id, db.lookup (.channel id) = some channel := by
  constructor
  · intro hmem
    obtain ⟨key, -, hkey⟩ := mem_filterMap.mp hmem
    cases key <;> simp at hkey
    exact ⟨_, hkey⟩
  · rintro ⟨id, hid⟩
    have hmem : Key.channel id ∈ db := AList.lookup_isSome.mp (by simp [hid])
    exact mem_filterMap.mpr ⟨.channel id, AList.mem_keys.mp hmem, hid⟩

def KeyedChannels (db : AList Row) : Prop :=
  ∀ id (channel : NotifierChannelRow), db.lookup (.channel id) = some channel → channel.id = id

theorem KeyedChannels.nodup (hkeyed : KeyedChannels db) : ((channelsOf db).map (·.id)).Nodup := by
  have hchannels : (channelsOf db).Nodup := by
    apply List.Nodup.filterMap _ db.keys_nodup
    intro key key' channel hkey hkey'
    cases key <;> simp at hkey
    cases key' <;> simp at hkey'
    rw [← hkeyed _ channel hkey, ← hkeyed _ channel hkey']
  apply List.Nodup.map_on _ hchannels
  intro channel hmem channel' hmem' hid
  obtain ⟨id, hlookup⟩ := mem_channelsOf.mp hmem
  obtain ⟨id', hlookup'⟩ := mem_channelsOf.mp hmem'
  obtain rfl : id = id' := by
    rw [← hkeyed id channel hlookup, ← hkeyed id' channel' hlookup']
    exact hid
  exact some.inj (hlookup.symm.trans hlookup')

def SameChannels (db db' : AList Row) : Prop :=
  ∀ id, db'.lookup (.channel id) = db.lookup (.channel id)

theorem SameChannels.mem_iff (hsame : SameChannels db db') :
    channel ∈ channelsOf db' ↔ channel ∈ channelsOf db := by
  simp only [mem_channelsOf, hsame _]

theorem SameChannels.keyed (hsame : SameChannels db db') (hkeyed : KeyedChannels db) :
    KeyedChannels db' := by
  intro id channel hlookup
  rw [hsame id] at hlookup
  exact hkeyed id channel hlookup

/-- A transaction has enqueued one more row for each of the channels, and written nothing else. -/
structure Added (event : NotifierEvent) (channels : List NotifierChannelRow) (w w' : AList Row) :
    Prop where
  kept : ∀ key row, w.lookup key = some row → w'.lookup key = some row
  others : ∀ key, (∀ id, key ≠ .outbox id) → w'.lookup key = w.lookup key
  each : ∀ channel ∈ channels, ∃ id row, w.lookup (.outbox id) = none ∧
    w'.lookup (.outbox id) = some row ∧ row.channelId = channel.id
  only : ∀ id row, w.lookup (.outbox id) = none → w'.lookup (.outbox id) = some row →
    row.event = event ∧ ∃ channel ∈ channels, row.channelId = channel.id
  once : ∀ id id' row row', w.lookup (.outbox id) = none → w.lookup (.outbox id') = none →
    w'.lookup (.outbox id) = some row → w'.lookup (.outbox id') = some row' →
    row.channelId = row'.channelId → id = id'

variable {event : NotifierEvent} {w : AList Row}

theorem Added.nil : Added event [] w w where
  kept _ _ hrow := hrow
  others _ _ := rfl
  each _ hmem := by simp at hmem
  only id row hnone hrow := by simp [hnone] at hrow
  once id _ row _ hnone _ hrow := by simp [hnone] at hrow

variable {channels : List NotifierChannelRow} {w' : AList Row}

theorem Added.cons {id : Uuid} {payload : Json} {now : Instant} (hadded : Added event channels w w')
    (hnew : w'.lookup (.outbox id) = none) (hchannel : channel.id ∉ channels.map (·.id)) :
    Added event (channel :: channels) w
      (w'.insert (.outbox id) (enqueued id event payload now channel)) := by
  have hself : (w'.insert (.outbox id) (enqueued id event payload now channel)).lookup (.outbox id) =
      some (enqueued id event payload now channel) := AList.lookup_insert w'
  have hother {key : Key} (hne : key ≠ .outbox id) :
      (w'.insert (.outbox id) (enqueued id event payload now channel)).lookup key =
        w'.lookup key := AList.lookup_insert_ne hne
  have hfresh : w.lookup (.outbox id) = none := by
    cases hrow : w.lookup (.outbox id) with
    | none => rfl
    | some row =>
      have hkept := hadded.kept _ row hrow
      rw [hnew] at hkept
      cases hkept
  -- the new row is the only one for its channel
  have hapart {other : Uuid} {row : OutboxRow} (hnone : w.lookup (.outbox other) = none)
      (hrow : w'.lookup (.outbox other) = some row) : row.channelId ≠ channel.id := by
    intro heq
    obtain ⟨-, known, hmem, hknown⟩ := hadded.only other row hnone hrow
    exact hchannel (mem_map.mpr ⟨known, hmem, hknown.symm.trans heq⟩)
  constructor
  · intro key row hrow
    rw [hother ?_, hadded.kept key row hrow]
    rintro rfl
    rw [hfresh] at hrow
    cases hrow
  · intro key hkey
    rw [hother (hkey id), hadded.others key hkey]
  · intro known hmem
    obtain rfl | hmem := mem_cons.mp hmem
    · exact ⟨id, _, hfresh, hself, rfl⟩
    · obtain ⟨i, row, hnone, hrow, hid⟩ := hadded.each known hmem
      have hne : i ≠ id := by
        rintro rfl
        simp [hnew] at hrow
      exact ⟨i, row, hnone, (hother (by simpa using hne)).trans hrow, hid⟩
  · intro other row hnone hrow
    by_cases hid : other = id
    · subst hid
      obtain rfl := some.inj (hself.symm.trans hrow)
      exact ⟨rfl, channel, mem_cons_self, rfl⟩
    · rw [hother (by simpa using hid)] at hrow
      obtain ⟨hevent, known, hmem, hknown⟩ := hadded.only other row hnone hrow
      exact ⟨hevent, known, mem_cons_of_mem channel hmem, hknown⟩
  · intro i i' row row' hnone hnone' hrow hrow' heq
    by_cases hi : i = id
    · by_cases hi' : i' = id
      · rw [hi, hi']
      · subst hi
        obtain rfl := some.inj (hself.symm.trans hrow)
        rw [hother (by simpa using hi')] at hrow'
        exact absurd heq.symm (hapart hnone' hrow')
    · rw [hother (by simpa using hi)] at hrow
      by_cases hi' : i' = id
      · subst hi'
        obtain rfl := some.inj (hself.symm.trans hrow')
        exact absurd heq (hapart hnone hrow)
      · rw [hother (by simpa using hi')] at hrow'
        exact hadded.once i i' row row' hnone hnone' hrow hrow' heq

structure Fanned (event : NotifierEvent) (channels : List NotifierChannelRow) (w : AList Row) :
    Prop where
  each : ∀ channel ∈ channels, ∃ id row, w.lookup (.outbox id) = some row ∧
    row.channelId = channel.id
  only : ∀ id row, w.lookup (.outbox id) = some row → row.event = event ∧
    ∃ channel ∈ channels, row.channelId = channel.id
  once : ∀ id id' row row', w.lookup (.outbox id) = some row → w.lookup (.outbox id') = some row' →
    row.channelId = row'.channelId → id = id'

theorem Added.fanned (hadded : Added event channels w w')
    (hfree : ∀ id, w.lookup (.outbox id) = none) :
    Fanned event channels w' where
  each channel hmem := by
    obtain ⟨id, row, -, hrow, hid⟩ := hadded.each channel hmem
    exact ⟨id, row, hrow, hid⟩
  only id row hrow := hadded.only id row (hfree id) hrow
  once id id' row row' hrow hrow' heq :=
    hadded.once id id' row row' (hfree id) (hfree id') hrow hrow' heq

section FanOut

variable {G : Type} {T : Script Row ManagementRequest Upstream G} {g : G}
  {event : NotifierEvent} {payload : Json} {E : ApiError → AList Row → G → Prop} {w₀ w : AList Row}
  {now : Instant}

theorem Added.enqueue {told rest : List NotifierChannelRow} {id : Uuid}
    (hnodup : ((told ++ channel :: rest).map (·.id)).Nodup) (hadded : Added event told w₀ w)
    (hnew : w.lookup (.outbox id) = none) :
    ((channel :: told ++ rest).map (·.id)).Nodup ∧ Added event (channel :: told) w₀
      (w.insert (.outbox id) (enqueued id event payload now channel)) := by
  have hmoved : (channel :: told ++ rest).Perm (told ++ channel :: rest) := perm_middle.symm
  have hnodup' : ((channel :: told ++ rest).map (·.id)).Nodup :=
    (hmoved.map (·.id)).nodup_iff.mpr hnodup
  refine ⟨hnodup', hadded.cons hnew fun htold => ?_⟩
  rw [cons_append, map_cons, nodup_cons, map_append] at hnodup'
  exact hnodup'.1 (mem_append_left _ htold)

theorem follows_enqueueEach (hpasses : T.PassesAt schema (fun _ => False) g)
    (hE : ∀ e w, E e w g) (channels : List NotifierChannelRow) :
    ∀ {told : List NotifierChannelRow} {w : AList Row}, ((told ++ channels).map (·.id)).Nodup →
      Added event told w₀ w →
      Follows schema T (enqueueEach event payload now channels) w g
        (fun _ w' g' => g' = g ∧
          ∃ all : List NotifierChannelRow, all.Perm (told ++ channels) ∧ Added event all w₀ w') E := by
  induction channels with
  | nil =>
    intro told w _ hadded
    exact .pure ⟨rfl, told, by simp, hadded⟩
  | cons channel rest ih =>
    intro told w hnodup hadded
    refine .bind (.fresh hpasses fun id => ?_)
    refine .bind (.insert_of_passes hpasses (fun h => h) ?_ ?_ (hE _ _))
    · intro c _ hwrites hmem
      have hnew : w.lookup (.outbox id) = none := by
        rw [AList.lookup_eq_none, ← hwrites]
        exact fun hmem' => hmem (AList.mem_union.mpr (.inl hmem'))
      obtain ⟨hnodup', hadded'⟩ := hadded.enqueue hnodup hnew
      refine .mono (fun _ w' g' hdone => ?_) (fun _ _ _ he => he) (ih hnodup' hadded')
      obtain ⟨hg, all, hall, hadded'⟩ := hdone
      exact ⟨hg, all, hall.trans perm_middle.symm, hadded'⟩
    · exact .bind (.ensure (fun h => by simp at h) fun _ => hE _ _)

theorem follows_enqueueEventTx {tenantId : Uuid} {db : AList Row} {Q : Unit → AList Row → G → Prop}
    (hpasses : T.PassesAt schema (fun _ => False) g) (hkeyed : KeyedChannels db)
    (hchannels : ∀ c, T.known g c → c.writes = w → SameChannels db c.seen) (hE : ∀ e w, E e w g)
    (hQ : ∀ w' channels, (∀ channel, channel ∈ channels ↔
        channel ∈ channelsOf db ∧ subscribes tenantId event channel = true) →
      Added event channels w w' → Q () w' g) :
    Follows schema T (enqueueEventTx tenantId event payload) w g Q E := by
  refine .bind (.sqlNow hpasses fun began _ _ => ?_)
  refine .bind (.snapshot hpasses fun c hknown hwrites => ?_)
  have hsame := hchannels c hknown hwrites
  have hnodup : (([] ++ (channelsOf c.seen).filter (subscribes tenantId event)).map
      NotifierChannelRow.id).Nodup := by
    exact (hsame.keyed hkeyed).nodup.sublist (filter_sublist.map _)
  refine .mono (fun _ w' g' hdone => ?_) (fun _ _ _ he => he)
    (follows_enqueueEach hpasses hE _ hnodup .nil)
  obtain ⟨rfl, channels, hperm, hadded⟩ := hdone
  refine hQ w' channels (fun channel => ?_) hadded
  rw [hperm.mem_iff, nil_append, mem_filter, hsame.mem_iff]

end FanOut

namespace Failures

inductive Phase
  | other
  | reporting
  | claimed (id : Uuid) (row : ProvisioningJobRow)

def held : Phase → (key : Key) → Option (Row key) → Prop
  | .claimed id row, .job id', version => id' = id ∧ version = some row
  | _, _, _ => False

def Announces (db w : AList Row) : Prop :=
  ∀ id (job : ProvisioningJobRow), w.lookup (.job id) = some job → job.status = .failed →
    ∃ channels, (∀ channel, channel ∈ channels ↔ channel ∈ channelsOf db ∧
      subscribes job.tenantId .provisioningFailed channel = true) ∧
      Fanned .provisioningFailed channels w

theorem Announces.empty {db : AList Row} : Announces db ∅ := by
  intro id job hjob
  simp at hjob

structure Move (db : AList Row) (g : Phase) (o : Op Row ManagementRequest) (c : Scene Row Upstream)
    (g' : Phase) : Prop where
  role : g' = .other ↔ g = .other
  announces : o = .commit → g ≠ .other → Announces db c.writes

def script (db : AList Row) : Script Row ManagementRequest Upstream Phase where
  known _ c := SameChannels db c.committed
  move g o c g' _ := Move db g o c g'

theorem passes (db : AList Row) : ((script db).holding held).Passes schema fun _ => False := by
  refine Script.Passes.holding fun g o c answer c' _ hspares _ => ⟨Iff.rfl, ?_⟩
  rintro rfl
  exact absurd hspares (by simp [Op.Spares])

section Follows

variable {cfg : Config} {db : AList Row} {id : Uuid} {row : ProvisioningJobRow}
  {worker token code : String} {detail : Option String} {g : Phase} {w : AList Row}
  {E : ApiError → AList Row → Phase → Prop}

theorem rollback_allowed : ((script db).holding held).Drops g w fun _ => True := by
  intro c _ _
  cases g with
  | other => exact ⟨.other, ⟨⟨Iff.rfl, by simp⟩, fun _ _ h => h.elim⟩, trivial⟩
  | reporting => exact ⟨.reporting, ⟨⟨Iff.rfl, by simp⟩, fun _ _ h => h.elim⟩, trivial⟩
  | claimed id row => exact ⟨.reporting, ⟨⟨by simp, by simp⟩, fun _ _ h => h.elim⟩, trivial⟩

theorem commit_allowed (hg : g ≠ .other) (hannounces : Announces db w) :
    ((script db).holding held).Commits g w fun _ => True := by
  intro c _ hwrites
  subst hwrites
  exact ⟨.reporting, ⟨⟨by simp [hg], fun _ _ => hannounces⟩, fun _ _ h => h.elim⟩, trivial⟩

theorem seen_claim {c : Scene Row Upstream}
    (hknown : ((script db).holding held).known (.claimed id row) c)
    (hwrites : c.writes = ∅) : c.seen.lookup (.job id) = some row := by
  have hholds := hknown.2 (.job id) (some row) ⟨rfl, rfl⟩
  rw [Scene.lookup_seen, hwrites]
  exact hholds.committed

theorem follows_verifyProvisioningClaim {Q : ProvisioningJobRow → AList Row → Phase → Prop}
    (hE : ∀ e, E e ∅ (.claimed id row)) (hQ : Q row ∅ (.claimed id row)) :
    Follows schema ((script db).holding held) (verifyProvisioningClaim cfg id worker token)
      ∅ (.claimed id row) Q E := by
  refine .bind (.lock (passes db _) fun c hknown hwrites => ?_)
  rw [seen_claim hknown hwrites]
  refine .bind (.okOr (fun found hfound => ?_) fun _ => hE _)
  obtain rfl := some.inj hfound
  refine .bind (.ensure (fun _ => ?_) fun _ => hE _)
  refine .bind (.okOr (fun _ _ => ?_) fun _ => hE _)
  refine .bind (.utcNow (passes db _) fun _ => ?_)
  refine .bind (.ensure (fun _ => ?_) fun _ => hE _)
  refine .bind (.okOr (fun _ _ => ?_) fun _ => hE _)
  refine .bind (.ensure (fun _ => ?_) fun _ => hE _)
  exact .pure hQ

theorem follows_announce {payload : Json} {job : ProvisioningJobRow}
    {Q : Unit → AList Row → Phase → Prop} (hkeyed : KeyedChannels db)
    (htenant : job.tenantId = row.tenantId) (hE : ∀ e w, E e w (.claimed id row))
    (hQ : ∀ w, Announces db w → Q () w (.claimed id row)) :
    Follows schema ((script db).holding held)
      (enqueueEventTx row.tenantId .provisioningFailed payload)
      (AList.insert (.job id) job ∅) (.claimed id row) Q E := by
  refine follows_enqueueEventTx (passes db _) hkeyed (fun c hknown hwrites other => ?_)
    hE fun w channels hchannels hadded => hQ w ?_
  · rw [Scene.lookup_seen, hwrites, AList.lookup_insert_ne (by simp)]
    exact hknown.1 other
  · have hfanned : Fanned .provisioningFailed channels w := by
      refine hadded.fanned fun other => ?_
      rfl
    intro other failed hfailed _
    rw [hadded.others (.job other) (by simp)] at hfailed
    obtain rfl : other = id := by
      by_contra hne
      rw [AList.lookup_insert_ne (by simpa using hne)] at hfailed
      simp at hfailed
    rw [AList.lookup_insert, some.injEq] at hfailed
    subst hfailed
    rw [htenant]
    exact ⟨channels, hchannels, hfanned⟩

theorem follows_failProvisioning (hkeyed : KeyedChannels db) :
    Follows schema ((script db).holding held)
      (failProvisioning cfg id worker token code detail) ∅ .reporting (fun _ _ _ => True)
      fun _ _ _ => True := by
  refine .inTransaction fun c _ _ =>
    ⟨.reporting, ⟨⟨Iff.rfl, by simp⟩, fun _ _ h => h.elim⟩, ?_⟩
  refine .bind (.sqlNow (passes db _) fun began _ _ => ?_)
  refine .bind (.ask fun c found c' _ hwrites hlock => ?_)
  obtain ⟨hfound, rfl⟩ := hlock
  rw [Scene.lookup_seen, hwrites] at hfound
  cases found with
  | none =>
    refine ⟨.reporting, ⟨⟨Iff.rfl, by simp⟩, fun _ _ h => h.elim⟩, ?_⟩
    exact .bind (.okOr (fun _ h => by cases h)
      fun _ => rollback_allowed)
  | some row =>
    have hheld : ∀ key version, held (.claimed id row) key version →
        (c.found (.job id) (some row)).Holds key version := by
      intro key version hkey
      cases key with
      | job other =>
        obtain ⟨rfl, rfl⟩ := hkey
        exact ⟨.inl rfl, hfound.symm⟩
      | _ => exact hkey.elim
    refine ⟨.claimed id row, ⟨⟨by simp, by simp⟩, hheld⟩, ?_⟩
    rw [Scene.found_writes, hwrites]
    refine .bind (.okOr (fun existing hexisting => ?_) fun h => by cases h)
    split_ifs with hstatus
    · refine .bind (.ensure (fun _ => ?_) fun _ => rollback_allowed)
      exact .pure (commit_allowed (by simp) .empty)
    · refine .bind (.ensure (fun _ => ?_) fun _ => rollback_allowed)
      refine .bind (follows_verifyProvisioningClaim (fun _ => rollback_allowed) ?_)
      refine .bind (.updateRow (passes db _) ?_ ?_)
      · exact fun _ _ _ _ => .bind (.okOr (fun _ h => by cases h)
          fun _ => rollback_allowed)
      · intro c seen current hknown hwrites' hcurrent _
        rw [seen_claim hknown hwrites', some.injEq] at hcurrent
        subst hcurrent
        refine .write_of_passes (passes db _) (fun h => h) ?_
          fun _ => rollback_allowed
        refine .bind (.okOr (fun job hjob => ?_) fun h => by cases h)
        refine .bind (follows_announce hkeyed rfl
          (fun _ _ => rollback_allowed) fun w hannounces => ?_)
        exact .pure (commit_allowed (by simp) hannounces)

def first : Call → Phase
  | .fail .. => .reporting
  | _ => .other

theorem first_eq_other_iff {call : Call} :
    first call = .other ↔ ¬ ∃ id worker token code detail, call = .fail id worker token code detail := by
  cases call <;> simp [first]

theorem follows_handle (hkeyed : KeyedChannels db) (call : Call) :
    ((server cfg).handler call).Follows (server cfg).schema ((script db).holding held) ∅ (first call)
      fun _ _ _ => True := by
  by_cases hfirst : first call = .other
  · have hany (o c c') : ((script db).holding held).move .other o c .other c' :=
      ⟨⟨Iff.rfl, by simp⟩, fun _ _ h => h.elim⟩
    rw [hfirst]
    exact Prog.follows_of_forall hany fun _ _ => trivial
  · rw [first_eq_other_iff, not_not] at hfirst
    obtain ⟨id, worker, token, code, detail, rfl⟩ := hfirst
    refine follows_run (.map ?_)
    refine .bind (.require (fun _ _ => ?_) fun _ _ => trivial)
    refine .bind (.require (fun _ _ => ?_) fun _ _ => trivial)
    refine .bind (.require (fun _ _ => ?_) fun _ _ => trivial)
    exact follows_failProvisioning hkeyed

end Follows

section Runs

variable {cfg : Config} {db : AList Row} {s t : State} {γ : Nat → Phase}

theorem sameChannels_step {a : Action Key Call} (hholds : (protocol cfg).Holds s)
    (hstep : step (server cfg) s a = some t) (hsame : SameChannels db s.committed) :
    SameChannels db t.committed := by
  intro id
  rw [← hsame id]
  by_contra hchange
  obtain ⟨_, _, _, _, _, _, _, _, _, _, _, hchain⟩ := Protocol.changed hstep hholds hchange
  obtain ⟨_, _, _, _, hwrite⟩ := hchain.first
  exact hwrite

def suits (call : Call) (g : Phase) : Prop := g = .other ↔ first call = .other

structure Holds (cfg : Config) (db : AList Row) (s : State) (γ : Nat → Phase) : Prop where
  protocol : (protocol cfg).Holds s
  channels : SameChannels db s.committed
  roles : Suited suits s γ

theorem Holds.step {a : Action Key Call} {γ' : Nat → Phase} (hholds : Holds cfg db s γ)
    (hstep : ReadCommitted.step (server cfg) s a = some t) (hroles : Suited suits t γ') :
    Holds cfg db t γ' :=
  ⟨hholds.protocol.step protocol_metBy hstep, sameChannels_step hholds.protocol hstep hholds.channels,
    hroles⟩

theorem keeps_holds : (script db).Keeps (server cfg) anyStep (fun _ => first)
    fun _ => Holds cfg db where
  start _ _ _ _ _ _ hholds _ hstep _ ht :=
    hholds.step hstep (ht ▸ hholds.roles.setSession fun _ => Iff.rfl)
  known _ _ _ _ _ _ _ _ hholds _ := hholds.channels
  run _ _ _ sid _ call _ _ tx _ _ _ _ _ hholds _ hstep hsession _ hmove ht :=
    hholds.step hstep (ht ▸ hholds.roles.setSession
      fun _ => hmove.role.trans (hholds.roles sid call _ tx hsession))
  crash _ _ _ _ _ _ _ _ hholds _ hstep _ ht :=
    hholds.step hstep (ht ▸ hholds.roles.crash)
  tick _ _ _ _ _ hholds _ hstep ht :=
    hholds.step hstep (ht ▸ hholds.roles)

theorem announces_of_reaches {sid : Nat} {id : Uuid} {worker token code : String}
    {detail : Option String} {next} {tx : Txn Row} (hboot : Booted cfg s)
    (hkeyed : KeyedChannels s.committed) (hreach : Reaches (server cfg) anyStep s t)
    (hsession : t.sessions sid =
      some ⟨.fail id worker token code detail, some (.op .commit next), tx⟩) :
    SameChannels s.committed t.committed ∧ Announces s.committed tx.writes := by
  have hidle : ∀ sid, s.sessions sid = none := hboot.atRest.1
  have hinit : Holds cfg s.committed s fun _ => .other := by
    refine ⟨holds_of_booted hboot, fun _ => rfl, fun sid call p tx hsession => ?_⟩
    simp [hidle sid] at hsession
  have hrows : HoldsRows held s fun _ => Phase.other := by
    intro sid tx _ key version hheld
    exact hheld.elim
  obtain ⟨γ, ⟨hholds, -, hheld⟩, hfollowed⟩ :=
    (keeps_holds.holding fun _ call key version h => by cases call <;> exact h).reaches
    (fun _ _ call _ => follows_handle hkeyed call)
    ⟨_, ⟨hinit, (holds_of_booted hboot).disciplined, hrows⟩,
      fun sid call p tx hsession => by simp [hidle sid] at hsession⟩ hreach
  have hreporting : γ sid ≠ .other := by
    rw [ne_eq, show γ sid = .other ↔ _ from hholds.roles sid _ _ tx hsession]
    simp [first]
  have hexec : (Op.commit : Op Row ManagementRequest).exec (server cfg).schema sid ⟨[], .answered⟩
      t.toShared tx = some ((), _, _) := rfl
  obtain ⟨g, hmove, -⟩ := hfollowed.moves
    ⟨hholds.channels, hheld sid tx ⟨_, _, _, hsession⟩⟩ hsession hexec
  exact ⟨hholds.channels, hmove.1.announces rfl hreporting⟩

end Runs

end Failures

variable {cfg : Config} {s t u : State} {a : Action Key Call} {id : Uuid} {job : ProvisioningJobRow}
  {sid : Nat} {worker : String} {tx : Txn Row}

theorem failed_of_chain {call : Call} {readings : List Instant} {old : Option ProvisioningJobRow}
    (hchain : Chain (callWrites cfg call) readings (.job id) old job) (hfailed : job.status = .failed) :
    (∃ worker region, call = .claim worker region) ∨
      ∃ worker token code detail, call = .fail id worker token code detail := by
  obtain ⟨_, _, _, _, hwrite⟩ := hchain.last
  cases hwrite with
  | exhausted worker region hcall => exact .inl ⟨worker, region, hcall⟩
  | failed worker token code detail hcall => exact .inr ⟨worker, token, code, detail, hcall⟩
  | renewed _ _ _ _ _ _ _ _ _ row hclaim =>
    have hrunning : row.status = .failed := hfailed
    rw [hclaim.running] at hrunning
    cases hrunning
  | _ => cases hfailed

/-- The step adds one row for the channel to the outbox, and it tells of a failed deployment. -/
def AnnouncedTo (channel : NotifierChannelRow) (t u : State) : Prop :=
  ∃! outboxId, ∃ row : OutboxRow, t.committed.lookup (.outbox outboxId) = none ∧
    u.committed.lookup (.outbox outboxId) = some row ∧ row.channelId = channel.id ∧
    row.event = .provisioningFailed

theorem not_announcedTo_of_claim {sid : Nat} {worker : String} {region : Option String} {next}
    {tx : Txn Row} (hholds : (protocol cfg).Holds t)
    (hbefore : t.sessions sid = some ⟨.claim worker region, some (.op .commit next), tx⟩)
    (hcommitted : u.committed = tx.writes ∪ t.committed) : ¬ AnnouncedTo channel t u := by
  rintro ⟨outboxId, ⟨row, hnone, hrow, -⟩, -⟩
  rw [hcommitted, lookup_union, hnone, or_none] at hrow
  obtain ⟨_, _, _, _, hwrite⟩ := (hholds.linked sid _ hbefore (.outbox outboxId) row hrow).first
  generalize t.committed.lookup (.outbox outboxId) = old at hwrite
  cases hwrite with
  | enqueued _ hcall => exact hcall
  | dispatched _ hcall => cases hcall

theorem announcedTo_of_fanned {sid : Nat} {worker token code : String} {detail : Option String}
    {next} {tx : Txn Row} (hholds : (protocol cfg).Holds t)
    (hbefore : t.sessions sid = some ⟨.fail id worker token code detail, some (.op .commit next), tx⟩)
    (hcommitted : u.committed = tx.writes ∪ t.committed)
    (hfanned : Fanned .provisioningFailed channels tx.writes) (hchannel : channel ∈ channels) :
    AnnouncedTo channel t u := by
  have hnew {outboxId : Uuid} {row : OutboxRow} (hrow : tx.writes.lookup (.outbox outboxId) = some row) :
      t.committed.lookup (.outbox outboxId) = none := by
    obtain ⟨_, _, _, _, hwrite⟩ := (hholds.linked sid _ hbefore (.outbox outboxId) row hrow).first
    generalize t.committed.lookup (.outbox outboxId) = old at hwrite
    cases hwrite with
    | enqueued => rfl
    | dispatched _ hcall => cases hcall
  obtain ⟨outboxId, row, hrow, hid⟩ := hfanned.each channel hchannel
  refine ⟨outboxId, ⟨row, hnew hrow, ?_, hid, (hfanned.only outboxId row hrow).1⟩, ?_⟩
  · rw [hcommitted, lookup_union, hrow, some_or]
  · rintro other ⟨row', hnone, hrow', hid', -⟩
    rw [hcommitted, lookup_union, hnone, or_none] at hrow'
    exact hfanned.once other outboxId row' row hrow' hrow (hid'.trans hid.symm)

/-- **Which failures are announced.** When a job becomes failed, the step adds one row for each
channel subscribed to failures of the tenant if and only if the job's worker reported the failure,
or there is no such channel. -/
theorem failure_announced_iff (hboot : Booted cfg s) (hkeyed : KeyedChannels s.committed)
    (hreach : Reaches (server cfg) anyStep s t) (hstep : step (server cfg) t a = some u)
    (hjob : u.committed.lookup (.job id) = some job) (hfailed : job.status = .failed)
    (hbefore : ∀ old : ProvisioningJobRow, t.committed.lookup (.job id) = some old →
      old.status ≠ .failed) :
    (∀ channel ∈ channelsOf t.committed,
      subscribes job.tenantId .provisioningFailed channel = true → AnnouncedTo channel t u) ↔
      (∃ worker token code detail,
        Protocol.committing (.job id) t a = some (.fail id worker token code detail)) ∨
      ∀ channel ∈ channelsOf t.committed,
        subscribes job.tenantId .provisioningFailed channel = false := by
  have hholds := holds_of_reaches hboot hreach
  have hchange : u.committed.lookup (.job id) ≠ t.committed.lookup (.job id) := by
    intro hsame
    exact hbefore job (hsame ▸ hjob) hfailed
  obtain ⟨sid, choice, call, next, tx, new, rfl, hsession, -, hwritten, hnow, hchain⟩ :=
    Protocol.changed hstep hholds hchange
  obtain rfl : new = job := some.inj (hnow.symm.trans hjob)
  have hcommitted : u.committed = tx.writes ∪ t.committed := commit_step hsession hstep
  have hmem : Key.job id ∈ tx.writes := AList.lookup_isSome.mp (by simp [hwritten])
  have hcommitting : Protocol.committing (.job id) t (.run sid choice) = some call := by
    simp [Protocol.committing, hsession, hmem]
  obtain ⟨worker, region, rfl⟩ | ⟨worker, token, code, detail, rfl⟩ := failed_of_chain hchain hfailed
  · have hsilent (channel : NotifierChannelRow) : ¬ AnnouncedTo channel t u :=
      not_announcedTo_of_claim hholds hsession hcommitted
    rw [hcommitting]
    simp [hsilent]
  · obtain ⟨hsame, hannounces⟩ := Failures.announces_of_reaches hboot hkeyed hreach hsession
    obtain ⟨channels, hchannels, hfanned⟩ := hannounces id new hwritten hfailed
    refine iff_of_true (fun channel hchannel hsubscribes => ?_)
      (.inl ⟨worker, token, code, detail, hcommitting⟩)
    exact announcedTo_of_fanned hholds hsession hcommitted hfanned
      ((hchannels channel).mpr ⟨hsame.mem_iff.mp hchannel, hsubscribes⟩)

def demoChannel : NotifierChannelRow := ⟨3, 1, true, []⟩

def demoNotified : State :=
  { demoState with committed := demoState.committed.insert (.channel 3) demoChannel }

theorem demoNotified_booted (cfg : Config) : Booted cfg demoNotified where
  atRest := (demo_booted cfg).atRest
  jobs id row hrow := by
    exact (demo_booted cfg).jobs id row hrow
  oneActive id id' row row' hrow hrow' := by
    exact (demo_booted cfg).oneActive id id' row row' hrow hrow'

theorem demoNotified_keyed : KeyedChannels demoNotified.committed := by
  intro id channel hchannel
  by_cases hid : id = 3
  · subst hid
    obtain rfl : demoChannel = channel := by simpa [demoNotified] using hchannel
    rfl
  · rw [demoNotified, AList.lookup_insert_ne (by simpa using hid)] at hchannel
    simp [demoState, AList.lookup, AList.singleton, dlookup, AList.insert, kinsert,
      kerase] at hchannel

def reportedFailure : List (Action Key Call) :=
  claimSchedule ++ alone 2 (.fail 100 "worker-1" demoToken "boom" none) 12

def lateClaim (sid found rest : Nat) : List (Action Key Call) :=
  .tick 300000000 :: alone sid (.claim "worker-1" (some "eu")) found ++
    .run sid ⟨[.job 100], .answered⟩ :: List.replicate rest (.run sid ⟨[], .answered⟩)

def lapsedFailure : List (Action Key Call) :=
  claimSchedule ++ lateClaim 2 6 9 ++ lateClaim 3 6 9 ++ lateClaim 4 4 5

/-- What a step does to job 100: the failure report it commits, the job around it, and the rows there
are for its announcement. -/
structure FailureStep where
  reported : Option Uuid
  before : Option JobStatus
  after : Option (JobStatus × Uuid)
  channel : Option NotifierChannelRow
  keys : List Key
deriving DecidableEq

def failureStep (sid : Nat) (t : State) : Option FailureStep :=
  (step (server demoConfig) t (.run sid ⟨[], .answered⟩)).map fun u =>
    { reported := (Protocol.committing (.job 100) t (.run sid ⟨[], .answered⟩)).bind fun call =>
        match call with
        | .fail id .. => some id
        | _ => none
      before := jobStatus t 100
      after := (u.committed.lookup (.job 100)).map fun job : ProvisioningJobRow =>
        (job.status, job.tenantId)
      channel := t.committed.lookup (.channel 3)
      keys := u.committed.keys }

theorem failureStep_eq_some {t : State} {reported : Option Uuid} {keys : List Key}
    (hfailure : failureStep sid t =
      some ⟨reported, some .running, some (.failed, 1), some demoChannel, keys⟩) :
    ∃ u, ∃ job : ProvisioningJobRow, step (server demoConfig) t (.run sid ⟨[], .answered⟩) = some u ∧
      jobStatus t 100 = some .running ∧ u.committed.lookup (.job 100) = some job ∧
      job.status = .failed ∧ demoChannel ∈ channelsOf t.committed ∧
      subscribes job.tenantId .provisioningFailed demoChannel = true ∧ u.committed.keys = keys ∧
      ∀ id, reported = some id → ∃ worker token code detail,
        Protocol.committing (.job 100) t (.run sid ⟨[], .answered⟩) =
          some (.fail id worker token code detail) := by
  obtain ⟨u, hstep, heq⟩ := map_eq_some_iff.mp hfailure
  simp only [FailureStep.mk.injEq] at heq
  obtain ⟨hreported, hbefore, hafter, hchannel, hkeys⟩ := heq
  obtain ⟨job, hjob, hrow⟩ := map_eq_some_iff.mp hafter
  obtain ⟨hstatus, htenant⟩ := Prod.mk.inj hrow
  refine ⟨u, job, hstep, hbefore, hjob, hstatus, mem_channelsOf.mpr ⟨3, hchannel⟩, ?_, hkeys,
    fun id hid => ?_⟩
  · rw [htenant]
    decide
  · rw [hid, bind_eq_some_iff] at hreported
    obtain ⟨call, hcall, hmatch⟩ := hreported
    cases call with
    | fail id' worker token code detail =>
      obtain rfl := some.inj hmatch
      exact ⟨worker, token, code, detail, hcall⟩
    | _ => cases hmatch

theorem failure_announced_iff_reported :
    ∃ t u : State, step (server demoConfig) t (.run 2 ⟨[], .answered⟩) = some u ∧
      jobStatus t 100 = some .running ∧ jobStatus u 100 = some .failed ∧
      AnnouncedTo demoChannel t u := by
  have hrun : (runSchedule (server demoConfig) demoNotified reportedFailure).bind (failureStep 2) =
      some ⟨some 100, some .running, some (.failed, 1), some demoChannel,
        [.outbox 102, .job 100, .channel 3, .job 2, .tenant 1]⟩ := by decide
  obtain ⟨t, hschedule, hfailure⟩ := bind_eq_some_iff.mp hrun
  obtain ⟨u, job, hstep, hbefore, hjob, hfailed, hchannel, hsubscribes, -, hreported⟩ :=
    failureStep_eq_some hfailure
  have hrunning (old : ProvisioningJobRow) (hold : t.committed.lookup (.job 100) = some old) :
      old.status ≠ .failed := by
    simp only [jobStatus, hold, map_some, some.injEq] at hbefore
    simp [hbefore]
  have hannounced := (failure_announced_iff (demoNotified_booted demoConfig) demoNotified_keyed
    (reaches_of_runSchedule hschedule) hstep hjob hfailed hrunning).mpr (.inl (hreported 100 rfl))
  refine ⟨t, u, hstep, hbefore, ?_, hannounced demoChannel hchannel hsubscribes⟩
  simp [jobStatus, hjob, hfailed]

/-- After three lapsed leases the job fails in the claim of another worker, and the channel hears
nothing. -/
theorem failure_silent_after_lapsed_leases :
    ∃ (t u : State) (job : ProvisioningJobRow),
      Reaches (server demoConfig) anyStep demoNotified t ∧
      step (server demoConfig) t (.run 4 ⟨[], .answered⟩) = some u ∧
      jobStatus t 100 = some .running ∧ u.committed.lookup (.job 100) = some job ∧
      job.status = .failed ∧ demoChannel ∈ channelsOf t.committed ∧
      subscribes job.tenantId .provisioningFailed demoChannel = true ∧
      ¬ AnnouncedTo demoChannel t u := by
  have hrun : (runSchedule (server demoConfig) demoNotified lapsedFailure).bind (failureStep 4) =
      some ⟨none, some .running, some (.failed, 1), some demoChannel,
        [.job 100, .channel 3, .job 2, .tenant 1]⟩ := by decide
  obtain ⟨t, hschedule, hfailure⟩ := bind_eq_some_iff.mp hrun
  obtain ⟨u, job, hstep, hbefore, hjob, hfailed, hchannel, hsubscribes, hkeys, -⟩ :=
    failureStep_eq_some hfailure
  refine ⟨t, u, job, reaches_of_runSchedule hschedule, hstep, hbefore, hjob, hfailed, hchannel,
    hsubscribes, ?_⟩
  rintro ⟨outboxId, ⟨row, -, hrow, -⟩, -⟩
  have hmem : Key.outbox outboxId ∈ u.committed.keys :=
    AList.mem_keys.mp (AList.lookup_isSome.mp (by simp [hrow]))
  simp [hkeys] at hmem

end ControlPlane
