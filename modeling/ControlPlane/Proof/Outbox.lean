import ControlPlane.Proof.Jobs
import ControlPlane.ReadCommitted.Holding

/-!
# What dispatchers do to the outbox

Followed as a script, a dispatcher does nothing to a row of the outbox, claims it, or records an
outcome; others enqueue.
-/

namespace ControlPlane

open ReadCommitted ReadCommitted.Handler Store Function List AList

inductive Settled : OutboxRow → OutboxRow → Prop
  | sent (row : OutboxRow) (hpending : row.status = .pending) : Settled row (Store.sent row)
  | undelivered (error : String) (now : Instant) (row : OutboxRow) :
      Settled row (Store.undelivered error now row)

namespace Dispatch

inductive Phase
  | other
  | resting
  | claiming (now : Instant) (taken : List (Σ key, Row key))
  | delivering (ids : List Uuid)
  | recording (id : Uuid) (row : OutboxRow) (rest : List Uuid)

def Phase.ids : Phase → List Uuid
  | .delivering ids => ids
  | .recording id _ rest => id :: rest
  | .other | .resting | .claiming .. => []

def known : Phase → Scene Row Upstream → Prop
  | .claiming now _, c => c.start = now ∧ now ≤ c.clock
  | .delivering ids, _ => ids.Nodup
  | .recording id _ rest, _ => (id :: rest).Nodup
  | .other, _ | .resting, _ => True

def held : Phase → (key : Key) → Option (Row key) → Prop
  | .claiming _ taken, key, version => ∃ row, ⟨key, row⟩ ∈ taken ∧ version = some row
  | .recording id row _, .outbox id', version => id' = id ∧ version = some row
  | _, _, _ => False

inductive Move : Phase → Op Row ManagementRequest → Scene Row Upstream → Phase →
    Scene Row Upstream → Prop
  | other (o : Op Row ManagementRequest) (c c' : Scene Row Upstream) : Move .other o c .other c'
  | within (g : Phase) (o : Op Row ManagementRequest) (c c' : Scene Row Upstream)
      (ho : o ≠ .commit) (hknown : known g c') : Move g o c g c'
  | opens (c : Scene Row Upstream) : Move .resting .begin c (.claiming c.clock []) c.begun
  | takes (now : Instant) (taken : List (Σ key, Row key)) (key : Key) (row : Row key)
      (c : Scene Row Upstream) :
      Move (.claiming now taken) (.skipLocked key) c (.claiming now (taken ++ [⟨key, row⟩]))
        (c.holding key)
  | claims (now : Instant) (taken : List (Σ key, Row key)) (ids : List Uuid) (hnodup : ids.Nodup)
      (c : Scene Row Upstream)
      (hleased : ∀ id ∈ ids, ∃ row : OutboxRow, c.committed.lookup (.outbox id) = some row ∧
        isDue now row = true ∧ c.writes.lookup (.outbox id) = some (leased now row))
      (honly : ∀ id, id ∉ ids → c.writes.lookup (.outbox id) = none) :
      Move (.claiming now taken) .commit c (.delivering ids) c.committing
  | passes (id : Uuid) (rest : List Uuid) (c : Scene Row Upstream) (hwrites : c.writes = ∅) :
      Move (.delivering (id :: rest)) .commit c (.delivering rest) c.committing
  | holds (id : Uuid) (row : OutboxRow) (rest : List Uuid) (c : Scene Row Upstream) :
      Move (.delivering (id :: rest)) (.lock (.outbox id)) c (.recording id row rest)
        (c.holding (.outbox id))
  | records (id : Uuid) (row new : OutboxRow) (rest : List Uuid) (hnew : Settled row new)
      (c : Scene Row Upstream) (hrow : c.committed.lookup (.outbox id) = some row)
      (hwrites : c.writes = AList.insert (.outbox id) new ∅) :
      Move (.recording id row rest) .commit c (.delivering rest) c.committing
  | abandons (g : Phase) (hg : g ≠ .other) (c : Scene Row Upstream) :
      Move g .rollback c (.delivering []) c.dropping

def script : Script Row ManagementRequest Upstream Phase where
  known := known
  move := Move

variable {g : Phase} {o : Op Row ManagementRequest} {c c' : Scene Row Upstream} {g' : Phase}
  {w : AList Row} {key : Key} {rest : List Uuid}

theorem Move.role (hmove : Move g o c g' c') : g' = .other ↔ g = .other := by
  cases hmove with
  | other | within => exact Iff.rfl
  | abandons g hg => simp [hg]
  | _ => simp

theorem Move.known (hknown : known g c) (hmove : Move g o c g' c') : Dispatch.known g' c' := by
  cases hmove with
  | other => trivial
  | within _ _ _ _ _ hknown' => exact hknown'
  | opens => exact ⟨rfl, le_refl _⟩
  | takes => exact hknown
  | claims _ _ _ hnodup => exact hnodup
  | passes => exact hknown.of_cons
  | holds => exact hknown
  | records => exact hknown.of_cons
  | abandons => exact nodup_nil

theorem known_of_acts {K : Key → Prop} {answer : o.Result (Except ApiError Json)}
    (hknown : known g c) (hspares : o.Spares K false) (hacts : o.Acts schema c answer c') :
    known g c' := by
  cases g with
  | claiming now taken =>
    obtain ⟨hstart, hclock⟩ := hknown
    refine ⟨?_, ?_⟩
    · rw [Op.Acts.start hspares hacts, hstart]
    · rw [Op.Acts.clock hacts]
      exact hclock
  | _ => exact hknown

theorem script_passes : (script.holding held).Passes schema fun _ => False := by
  refine Script.Passes.holding fun g o c answer c' hknown hspares hacts => ?_
  refine .within g o c c' ?_ (known_of_acts hknown hspares hacts)
  rintro rfl
  exact absurd hspares (by simp [Op.Spares])

theorem rollback_allowed (hg : g ≠ .other) : (script.holding held).Drops g w fun _ => True :=
  fun c _ _ => ⟨.delivering [], ⟨.abandons g hg c, fun _ _ h => h.elim⟩, trivial⟩

theorem outboxWhere_eq_true {p : OutboxRow → Bool} {row : Row key}
    (hwhere : outboxWhere p key row = true) :
    ∃ id, ∃ found : OutboxRow, (⟨key, row⟩ : Σ key, Row key) = ⟨.outbox id, found⟩ ∧
      p found = true := by
  cases key with
  | outbox id => exact ⟨id, row, rfl, hwhere⟩
  | _ => cases hwhere

theorem map_pendingNotification {db : AList Row} {keys : List Key}
    (hrows : ∀ key ∈ keys, ∃ id, ∃ row : OutboxRow, key = .outbox id ∧
      db.lookup (.outbox id) = some row) :
    ((keys.filterMap (pendingNotification db)).map (·.id)).map Key.outbox = keys := by
  induction keys with
  | nil => rfl
  | cons key rest ih =>
    obtain ⟨id, row, rfl, hrow⟩ := hrows key mem_cons_self
    have hpending : pendingNotification db (.outbox id) = some ⟨id, row.event, row.payload⟩ := by
      simp only [pendingNotification, hrow, Option.map_some]
    rw [filterMap_cons_some hpending, map_cons, map_cons,
      ih fun key hkey => hrows key (mem_cons_of_mem _ hkey)]

theorem claim_allowed {now : Instant} {taken : List (Σ key, Row key)} {ids : List Uuid}
    (hkeys : (ids.map Key.outbox).Perm (taken.map Sigma.fst)) (hnodup : (taken.map Sigma.fst).Nodup)
    (hdue : ∀ r ∈ taken, outboxWhere (isDue now) r.1 r.2 = true)
    (heach : ∀ key ∈ taken.map Sigma.fst, ∃ row, ⟨key, row⟩ ∈ taken ∧
      w.lookup key = some (setOutbox (leased now) key row))
    (honly : ∀ key, key ∉ taken.map Sigma.fst → w.lookup key = none) :
    (script.holding held).Commits (.claiming now taken) w fun g =>
      (∅ : AList Row) = ∅ ∧ g = .delivering ids := by
  rintro c hknown rfl
  have hinjective : Function.Injective Key.outbox := fun _ _ h => by simpa using h
  have hmem (id : Uuid) : Key.outbox id ∈ taken.map Sigma.fst ↔ id ∈ ids := by
    rw [← hkeys.mem_iff, mem_map_of_injective hinjective]
  refine ⟨.delivering ids, ⟨.claims now taken ids ?_ c (fun id hid => ?_) fun id hid => ?_,
    fun _ _ h => h.elim⟩, rfl, rfl⟩
  · exact (hkeys.nodup_iff.mpr hnodup).of_map
  · obtain ⟨row, hrow, hwritten⟩ := heach (.outbox id) ((hmem id).mpr hid)
    have hholds := hknown.2 (.outbox id) (some row) ⟨row, hrow, rfl⟩
    exact ⟨row, hholds.committed, hdue _ hrow, hwritten⟩
  · exact honly (.outbox id) (mt (hmem id).mp hid)

theorem follows_claimDueNotifications (limit : Nat) :
    Follows schema (script.holding held) (claimDueNotifications limit) ∅ .resting
      (fun notifications w g => w = ∅ ∧ g = .delivering (notifications.map (·.id)))
      fun _ _ _ => True := by
  refine .inTransaction fun c _ _ =>
    ⟨.claiming c.clock [], ⟨.opens c, fun _ _ ⟨_, h, _⟩ => by simp at h⟩, ?_⟩
  generalize c.clock = now
  refine .bind (.sqlNow (script_passes _) fun began hknown _ => ?_)
  rw [hknown.1.1]
  refine .bind (.snapshot (script_passes _) fun seen _ _ => ?_)
  refine .bind (.shuffle (script_passes _) fun order horder => ?_)
  refine .bind (.takeUnlocked script_passes
    (fun taken key row c hknown hwrites hseen _ => ⟨.takes now taken key row c, ?_⟩) _
    fun found hsub hdue => ?_)
  · rintro key' version ⟨row', hmem, rfl⟩
    obtain hmem | hmem := mem_append.mp hmem
    · have hholds := hknown.2 key' (some row') ⟨row', hmem, rfl⟩
      exact ⟨.inr hholds.mine, hholds.committed⟩
    · obtain ⟨rfl, heq⟩ := Sigma.mk.inj (mem_singleton.mp hmem)
      obtain rfl := eq_of_heq heq
      rw [Scene.lookup_seen, hwrites] at hseen
      exact ⟨.inl rfl, hseen⟩
  have hnodup : (found.map Sigma.fst).Nodup := by
    apply hsub.nodup
    have hkeys : (byDueTime seen.seen order).Perm
        (Handler.matching seen.seen (outboxWhere (isDue now))) :=
      (perm_insertionSort _ _).trans horder
    exact hkeys.nodup_iff.mpr (seen.seen.keys_nodup.filter _)
  split_ifs with hempty
  · obtain rfl : found = [] := by simpa using hempty
    exact .pure (claim_allowed (by simp) hnodup hdue (by simp) fun _ _ => rfl)
  · refine .bind (.snapshot (script_passes _) fun joined hjoined hwrites => ?_)
    refine .bind (.shuffle (script_passes _) fun handed hhanded => ?_)
    have hrow {c : Scene Row Upstream} (hknown : (script.holding held).known (.claiming now found) c)
        {key : Key} (hkey : key ∈ found.map Sigma.fst) :
        ∃ row, c.committed.lookup key = some row ∧ decide (key ∈ found.map Sigma.fst) = true ∧
          ⟨key, row⟩ ∈ found := by
      obtain ⟨⟨key', row⟩, hmem, rfl⟩ := mem_map.mp hkey
      exact ⟨row, (hknown.2 key' (some row) ⟨row, hmem, rfl⟩).committed, by simpa using hkey, hmem⟩
    have hids : (((handed.filterMap (pendingNotification joined.seen)).map (·.id)).map
        Key.outbox).Perm (found.map Sigma.fst) := by
      rw [map_pendingNotification]
      · exact hhanded
      · intro key hkey
        obtain ⟨row, hlookup, -, hmem⟩ := hrow hjoined (hhanded.mem_iff.mp hkey)
        obtain ⟨id, _, heq, -⟩ := outboxWhere_eq_true (hdue _ hmem)
        cases heq
        refine ⟨id, row, rfl, ?_⟩
        rw [Scene.lookup_seen, hwrites]
        exact hlookup
    refine .bind (.updateWhere script_passes
      (fun _ _ => rollback_allowed (by simp)) (fun _ _ h => h)
      (fun key _ hkey => of_decide_eq_true hkey) (fun c hknown key hkey => hrow hknown hkey)
      fun w heach honly => ?_)
    exact .pure (claim_allowed hids hnodup hdue heach honly)

theorem commit_recorded {id : Uuid} {row new : OutboxRow} (hnew : Settled row new) :
    (script.holding held).Commits (.recording id row rest) (insert (.outbox id) new ∅)
      fun g => (∅ : AList Row) = ∅ ∧ g = .delivering rest :=
  fun c hknown hwrites => ⟨.delivering rest, ⟨.records id row new rest hnew c
    (hknown.2 (.outbox id) (some row) ⟨rfl, rfl⟩).committed hwrites, fun _ _ h => h.elim⟩, rfl, rfl⟩

theorem follows_record {id : Uuid} {qualifies : OutboxRow → Bool} {set : OutboxRow → OutboxRow}
    (hset : ∀ row, qualifies row = true → Settled row (set row)) :
    Follows schema (script.holding held)
      (Handler.updateRow (Key.outbox id) qualifies fun _ row => set row) ∅ (.delivering (id :: rest))
      (fun _ w g => (script.holding held).Commits g w fun g' =>
        (∅ : AList Row) = ∅ ∧ g' = .delivering rest)
      fun (_ : ApiError) w g => (script.holding held).Drops g w fun _ => True := by
  refine .updateRow_lock script_passes
    (fun c (row : OutboxRow) hknown hwrites hseen _ => ⟨.holds id row rest c, fun key version hheld => ?_⟩)
    (fun c _ hwrites => ⟨.delivering rest, ⟨.passes id rest c hwrites, fun _ _ h => h.elim⟩, rfl, rfl⟩)
    fun _ row hqualifies => ?_
  · cases key with
    | outbox id' =>
      obtain ⟨rfl, rfl⟩ := hheld
      rw [Scene.lookup_seen, hwrites] at hseen
      exact ⟨.inl rfl, hseen⟩
    | _ => exact hheld.elim
  · exact .write_of_passes (script_passes _) (fun h => h)
      (commit_recorded (hset row hqualifies)) fun _ => rollback_allowed (by simp)

theorem follows_completeNotification (id : Uuid) (error : Option String) (rest : List Uuid) :
    Follows schema (script.holding held) (completeNotification id error) ∅
      (.delivering (id :: rest)) (fun _ w g => w = ∅ ∧ g = .delivering rest) fun _ _ _ => True := by
  refine .inTransaction fun c hknown _ => ⟨.delivering (id :: rest),
    ⟨.within _ _ _ _ (by simp) hknown.1, fun _ _ h => h.elim⟩, ?_⟩
  refine .bind (.sqlNow (script_passes _) fun began _ _ => ?_)
  refine .bind (.mono (fun _ _ _ h => .pure h) (fun _ _ _ h => h) ?_)
  cases error with
  | none => exact follows_record fun row hpending => .sent row (by simpa using hpending)
  | some error => exact follows_record fun row _ => .undelivered error _ row

theorem follows_deliverEach (deliver : PendingNotification → Option String)
    (notifications : List PendingNotification) :
    Follows schema (script.holding held) (Routes.deliverEach deliver notifications) ∅
      (.delivering (notifications.map (·.id))) (fun _ _ _ => True) fun _ _ _ => True := by
  induction notifications with
  | nil => exact .pure trivial
  | cons notification rest ih =>
    refine .bind (.mono ?_ (fun _ _ _ h => h)
      (follows_completeNotification notification.id (deliver notification)
        (rest.map PendingNotification.id)))
    rintro _ _ _ ⟨rfl, rfl⟩
    exact ih

def first : Call → Phase
  | .dispatch _ => .resting
  | _ => .other

variable {call : Call}

theorem first_eq_other_iff : first call = .other ↔ ∀ deliver, call ≠ .dispatch deliver := by
  cases call <;> simp [first]

theorem follows_handle (cfg : Config) (call : Call) :
    ((server cfg).handler call).Follows (server cfg).schema (script.holding held) ∅ (first call)
      fun _ _ _ => True := by
  by_cases hfirst : first call = .other
  · have hany (o c c') : (script.holding held).move .other o c .other c' :=
      ⟨.other o c c', fun _ _ h => h.elim⟩
    rw [hfirst]
    exact Prog.follows_of_forall hany fun _ _ => trivial
  · simp only [first_eq_other_iff, not_forall, not_not] at hfirst
    obtain ⟨deliver, rfl⟩ := hfirst
    refine follows_run (.map (.bind (.mono ?_
      (fun _ _ _ _ => trivial) (follows_claimDueNotifications 8))))
    rintro notifications _ _ ⟨rfl, rfl⟩
    exact follows_deliverEach deliver notifications

variable {cfg : Config} {s t u : State} {γ : Nat → Phase} {id : Uuid}

def suits (call : Call) (g : Phase) : Prop := g = .other ↔ first call = .other

structure Holds (cfg : Config) (s : State) (γ : Nat → Phase) : Prop where
  protocol : (protocol cfg).Holds s
  roles : Suited suits s γ
  known : ∀ sid tx, s.InFlight sid tx → known (γ sid) (.of sid s.toShared tx)

inductive RowStep (id : Uuid) (t u : State) (a : Action Key Call) (g g' : Phase) : Prop
  | unchanged (hnone : Protocol.committing (.outbox id) t a = none)
      (hsame : u.committed.lookup (.outbox id) = t.committed.lookup (.outbox id))
      (hids : id ∈ g'.ids → id ∈ g.ids)
  | enqueued (hsome : (Protocol.committing (.outbox id) t a).isSome = true) (event : NotifierEvent)
      (payload : Json) (now : Instant) (channel : NotifierChannelRow)
      (hnone : t.committed.lookup (.outbox id) = none)
      (hrow : u.committed.lookup (.outbox id) = some (Store.enqueued id event payload now channel))
      (hids : id ∉ g'.ids)
  | claimed (sid : Nat) (choice : Choice Key) (ha : a = .run sid choice) (call : Call)
      (next : Unit → Prog Row ManagementRequest (Except ApiError Json) (Except ApiError Reply))
      (tx : Txn Row) (hsession : t.sessions sid = some ⟨call, some (.op .commit next), tx⟩)
      (hclock : tx.start ≤ t.clock) (row : OutboxRow)
      (hwritten : tx.writes.lookup (.outbox id) = some (leased tx.start row))
      (hold : t.committed.lookup (.outbox id) = some row) (hdue : isDue tx.start row = true)
      (hrow : u.committed.lookup (.outbox id) = some (leased tx.start row))
  | settled (sid : Nat) (choice : Choice Key) (ha : a = .run sid choice) (call : Call)
      (next : Unit → Prog Row ManagementRequest (Except ApiError Json) (Except ApiError Reply))
      (tx : Txn Row) (hsession : t.sessions sid = some ⟨call, some (.op .commit next), tx⟩)
      (row new : OutboxRow) (hwritten : tx.writes.lookup (.outbox id) = some new)
      (hold : t.committed.lookup (.outbox id) = some row) (hnew : Settled row new)
      (hrow : u.committed.lookup (.outbox id) = some new) (hids : id ∈ g.ids) (hdone : id ∉ g'.ids)

variable {sid : Nat} {choice : Choice Key} {tx : Txn Row}

theorem committing_commit {key : Key} {next}
    (hsession : t.sessions sid = some ⟨call, some (.op .commit next), tx⟩) :
    Protocol.committing key t (.run sid choice) = if key ∈ tx.writes then some call else none := by
  simp [Protocol.committing, hsession]

theorem not_committing_of_lookup {key : Key} {next}
    (hsession : t.sessions sid = some ⟨call, some (.op .commit next), tx⟩)
    (hnone : tx.writes.lookup key = none) : Protocol.committing key t (.run sid choice) = none := by
  rw [committing_commit hsession, if_neg (lookup_eq_none.mp hnone)]

variable {a : Action Key Call} {sh sh' : Shared Row Index Upstream}

theorem rowStep_of_not_committing (hholds : (ControlPlane.protocol cfg).Holds t)
    (hstep : step (server cfg) t a = some u) (hnone : Protocol.committing (.outbox id) t a = none)
    (hids : id ∈ g'.ids → id ∈ g.ids) : RowStep id t u a g g' :=
  .unchanged hnone (Protocol.lookup_of_not_committing hstep hholds hnone) hids

theorem rowStep_of_other {next} (hholds : (ControlPlane.protocol cfg).Holds t)
    (hstep : step (server cfg) t (.run sid choice) = some u)
    (hsession : t.sessions sid = some ⟨call, some (.op .commit next), tx⟩)
    (hother : first call = .other) : RowStep id t u (.run sid choice) .other .other := by
  cases hwritten : tx.writes.lookup (.outbox id) with
  | none =>
    exact rowStep_of_not_committing hholds hstep (not_committing_of_lookup hsession hwritten)
      fun h => h
  | some new =>
    have hmem : Key.outbox id ∈ tx.writes := lookup_isSome.mp (by simp [hwritten])
    have hrow : u.committed.lookup (.outbox id) = some new := by
      rw [commit_step hsession hstep, lookup_union, hwritten, Option.some_or]
    have hchain := hholds.linked sid _ hsession (.outbox id) new hwritten
    generalize hold : t.committed.lookup (.outbox id) = old at hchain
    rw [first_eq_other_iff] at hother
    cases hchain with
    | single _ hwrite =>
      cases hwrite with
      | enqueued event _ payload now channel =>
        exact .enqueued (by simp [committing_commit hsession, hmem]) event payload now channel
          hold hrow (by simp [Phase.ids])
      | dispatched deliver hcall => exact absurd hcall (hother deliver)
    | snoc _ _ hwrite =>
      cases hwrite with
      | dispatched deliver hcall => exact absurd hcall (hother deliver)

theorem rowStep_of_move {next} (hholds : Holds cfg t γ)
    (hstep : step (server cfg) t (.run sid choice) = some u)
    (hsession : t.sessions sid = some ⟨call, some (.op o next), tx⟩)
    (hmove : Move (γ sid) o (.of sid t.toShared tx) g c') :
    RowStep id t u (.run sid choice) (γ sid) g := by
  have hquiet (ho : o ≠ .commit) : Protocol.committing (.outbox id) t (.run sid choice) = none := by
    cases o with
    | commit => exact absurd rfl ho
    | _ => simp [Protocol.committing, hsession]
  have hknown := hholds.known sid tx ⟨call, o, next, hsession⟩
  have hrole := hholds.roles sid call _ tx hsession
  generalize hc : Scene.of sid t.toShared tx = c at hmove hknown
  generalize γ sid = g₀ at hmove hknown hrole
  cases hmove with
  | other =>
    by_cases ho : o = .commit
    · subst ho
      exact rowStep_of_other hholds.protocol hstep hsession (hrole.mp rfl)
    · exact rowStep_of_not_committing hholds.protocol hstep (hquiet ho) fun h => h
  | within _ _ _ _ ho =>
    exact rowStep_of_not_committing hholds.protocol hstep (hquiet ho) fun h => h
  | opens | takes =>
    exact rowStep_of_not_committing hholds.protocol hstep (hquiet (by simp)) fun h => h
  | holds | abandons =>
    exact rowStep_of_not_committing hholds.protocol hstep (hquiet (by simp)) (by simp [Phase.ids])
  | passes id' rest _ hwrites =>
    subst hc
    refine rowStep_of_not_committing hholds.protocol hstep ?_ (mem_cons_of_mem id')
    apply not_committing_of_lookup hsession
    rw [show tx.writes = ∅ from hwrites]
    rfl
  | claims now taken ids _ _ hleased honly =>
    subst hc
    by_cases hid : id ∈ ids
    · obtain ⟨row, hrow, hdue, hwritten⟩ := hleased id hid
      obtain ⟨rfl, hclock⟩ := hknown
      have hwritten : tx.writes.lookup (.outbox id) = some (leased tx.start row) := hwritten
      refine .claimed sid choice rfl call next tx hsession hclock row hwritten hrow hdue ?_
      rw [commit_step hsession hstep, lookup_union, hwritten, Option.some_or]
    · exact rowStep_of_not_committing hholds.protocol hstep
        (not_committing_of_lookup hsession (honly id hid)) fun h => absurd h hid
  | records id' row new rest hnew _ hrow hwrites =>
    subst hc
    have hwrites : tx.writes = insert (.outbox id') new ∅ := hwrites
    by_cases hid : id = id'
    · subst hid
      have hwritten : tx.writes.lookup (.outbox id) = some new := by
        rw [hwrites, lookup_insert]
      refine .settled sid choice rfl call next tx hsession row new hwritten hrow hnew ?_
        mem_cons_self (nodup_cons.mp hknown).1
      rw [commit_step hsession hstep, lookup_union, hwritten, Option.some_or]
    · refine rowStep_of_not_committing hholds.protocol hstep ?_ (mem_cons_of_mem id')
      apply not_committing_of_lookup hsession
      rw [hwrites, lookup_insert_ne (by simpa using hid)]
      rfl

theorem known_mono (hclock : sh.clock ≤ sh'.clock) (hknown : known g (.of sid sh tx)) :
    known g (.of sid sh' tx) := by
  cases g with
  | claiming now taken => exact ⟨hknown.1, hknown.2.trans hclock⟩
  | _ => exact hknown

theorem Holds.setSession
    {session : Session Row ManagementRequest (Except ApiError Json) Call (Except ApiError Reply)}
    (hholds : Holds cfg s γ)
    (hprotocol : (ControlPlane.protocol cfg).Holds (s.setSession sid session sh))
    (hclock : s.clock ≤ sh.clock) (hrole : session.prog.isSome = true → suits session.call g)
    (hknown : session.prog.isSome = true → Dispatch.known g (.of sid sh session.txn)) :
    Holds cfg (s.setSession sid session sh) (update γ sid g) := by
  refine ⟨hprotocol, hholds.roles.setSession hrole, fun other tx hflight => ?_⟩
  obtain ⟨rfl, rfl, hlive⟩ | ⟨hne, hflight'⟩ := hflight.cases
  · rw [update_self]
    exact hknown hlive
  · rw [update_of_ne hne]
    exact known_mono hclock (hholds.known other tx hflight')

theorem Holds.start (hholds : Holds cfg s γ)
    (hstep : step (server cfg) s (.start sid call) = some t)
    (ht : t = s.setSession sid ⟨call, some ((server cfg).handler call), .idle⟩ s.toShared) :
    Holds cfg t (update γ sid (first call)) := by
  have hprotocol := hholds.protocol.step protocol_metBy hstep
  subst ht
  refine hholds.setSession hprotocol (le_refl _) (fun _ => Iff.rfl) fun _ => ?_
  cases call <;> trivial

theorem Holds.run {next} {tx' : Txn Row} {answer} {sh' : Shared Row Index Upstream}
    (hholds : Holds cfg s γ) (hstep : step (server cfg) s (.run sid choice) = some t)
    (hsession : s.sessions sid = some ⟨call, some (.op o next), tx⟩)
    (hexec : o.exec (server cfg).schema sid choice s.toShared tx = some (answer, sh', tx'))
    (hmove : Move (γ sid) o (.of sid s.toShared tx) g (.of sid sh' tx'))
    (ht : t = s.setSession sid ⟨call, some (next answer), tx'⟩ sh') :
    Holds cfg t (update γ sid g) := by
  have hprotocol := hholds.protocol.step protocol_metBy hstep
  have hclock : sh'.clock = s.clock := (exec_acts hexec).clock
  subst ht
  refine hholds.setSession hprotocol hclock.ge (fun _ => ?_) fun _ => ?_
  · exact hmove.role.trans (hholds.roles sid call _ tx hsession)
  · exact hmove.known (hholds.known sid tx ⟨call, o, next, hsession⟩)

theorem Holds.crash (hholds : Holds cfg s γ) (hstep : step (server cfg) s (.crash sid) = some t)
    (ht : t = s.setSession sid ⟨call, none, { tx with writes := ∅ }⟩ (settle sid s.toShared s.committed)) :
    Holds cfg t γ := by
  have hprotocol := hholds.protocol.step protocol_metBy hstep
  subst ht
  have hset := hholds.setSession (g := γ sid) hprotocol (le_refl _) (by simp) (by simp)
  rwa [update_eq_self] at hset

theorem Holds.tick {elapsed : Nat} (hholds : Holds cfg s γ)
    (hstep : step (server cfg) s (.tick elapsed) = some t)
    (ht : t = { s with clock := s.clock + elapsed }) : Holds cfg t γ := by
  have hprotocol := hholds.protocol.step protocol_metBy hstep
  subst ht
  refine ⟨hprotocol, hholds.roles, fun sid tx hflight => ?_⟩
  exact known_mono (Int.le.intro elapsed rfl) (hholds.known sid tx hflight)

def OutboxStep (id : Uuid) (e : Step) : Prop := ∃ g g', RowStep id e.before e.after e.action g g'

theorem outboxStep_of_not_run (hholds : Holds cfg s γ) (hstep : step (server cfg) s a = some t)
    (ha : Protocol.committing (.outbox id) s a = none) : OutboxStep id ⟨s, a, t⟩ :=
  ⟨.other, .other, rowStep_of_not_committing hholds.protocol hstep ha fun h => h⟩

theorem keeps_steps : script.Keeps (server cfg) anyStep (fun _ => first)
    fun history s γ => Holds cfg s γ ∧ ∀ e ∈ history, ∀ id, OutboxStep id e where
  start _ _ _ _ _ _ hI _ hstep _ ht := by
    refine ⟨hI.1.start hstep ht, forall_mem_cons.mpr ⟨fun id => ?_, hI.2⟩⟩
    exact outboxStep_of_not_run hI.1 hstep rfl
  known _ _ _ sid call o next tx hI hsession := hI.1.known sid tx ⟨call, o, next, hsession⟩
  run _ _ _ _ _ _ _ _ _ _ _ _ _ _ hI _ hstep hsession hexec hmove ht := by
    refine ⟨hI.1.run hstep hsession hexec hmove ht, forall_mem_cons.mpr ⟨fun id => ?_, hI.2⟩⟩
    exact ⟨_, _, rowStep_of_move hI.1 hstep hsession hmove⟩
  crash _ _ _ _ _ _ _ _ hI _ hstep _ ht := by
    refine ⟨hI.1.crash hstep ht, forall_mem_cons.mpr ⟨fun id => ?_, hI.2⟩⟩
    exact outboxStep_of_not_run hI.1 hstep rfl
  tick _ _ _ _ _ hI _ hstep ht := by
    refine ⟨hI.1.tick hstep ht, forall_mem_cons.mpr ⟨fun id => ?_, hI.2⟩⟩
    exact outboxStep_of_not_run hI.1 hstep rfl

theorem holds_of_booted (hboot : Booted cfg s) : Holds cfg s fun _ => .other := by
  have hidle : ∀ sid, s.sessions sid = none := hboot.atRest.1
  refine ⟨ControlPlane.holds_of_booted hboot, fun sid call p tx hsession => ?_, fun _ _ _ => trivial⟩
  simp [hidle sid] at hsession

theorem holdsRows_of_booted (hboot : Booted cfg s) :
    Disciplined s ∧ HoldsRows held s fun _ => .other :=
  ⟨(ControlPlane.holds_of_booted hboot).disciplined, fun _ _ _ _ _ hheld => hheld.elim⟩

theorem followed_of_booted (hboot : Booted cfg s) :
    (script.holding held).Followed (server cfg) (fun _ _ _ => True) s fun _ => .other := by
  intro sid call p tx hsession
  simp [hboot.atRest.1 sid] at hsession

theorem not_held_first (call : Call) (key : Key) (version : Option (Row key)) :
    ¬ held (first call) key version := by
  cases call <;> exact fun h => h

theorem outboxStep_of_run {history : List Step} (hboot : Booted cfg s)
    (hrun : Run (server cfg) anyStep s history t) : ∀ e ∈ history, ∀ id, OutboxStep id e := by
  obtain ⟨γ, hI, -⟩ := (keeps_steps.holding fun _ => not_held_first).run_induct
    (fun _ _ call _ => follows_handle cfg call)
    ⟨_, ⟨⟨holds_of_booted hboot, by simp⟩, holdsRows_of_booted hboot⟩, followed_of_booted hboot⟩ hrun
  exact hI.1.2

theorem outboxStep_of_reaches (hboot : Booted cfg s) (hreach : Reaches (server cfg) anyStep s t)
    (hstep : step (server cfg) t a = some u) (id : Uuid) : OutboxStep id ⟨t, a, u⟩ := by
  obtain ⟨history, hrun⟩ := hreach.exists_run
  exact outboxStep_of_run hboot (.cons hrun trivial hstep) _ mem_cons_self id

end Dispatch

end ControlPlane
