import ControlPlane.Proof.Failures
import ControlPlane.ReadCommitted.Recall

/-!
# Announcing approvals

A report compares the depth of the approval queue it leaves with the one it looked up before its
transaction, and announces a rise. Whether that is an edge depends on how far what it looked up is
from what it meets.
-/

namespace ControlPlane

open ReadCommitted ReadCommitted.Handler Store Option AList

namespace Approvals

def storedDepth (db : AList Row) (tenantId : Uuid) : Option Int :=
  (runtimeRow db tenantId).bind (·.awaitingApproval)

def reported (tenantId : Uuid) (e : Step) : Option (Nat × RuntimeReportRequest) :=
  match e.action with
  | .run sid _ =>
    match e.before.sessions sid with
    | some ⟨.report _ input, some (.op .commit _), tx⟩ =>
      if Key.runtime tenantId ∈ tx.writes then some (sid, input) else none
    | _ => none
  | _ => none

def applies (old : Option RuntimeStatusRow) (input : RuntimeReportRequest) : Bool :=
  old.all fun row => notOlder input.lastHeartbeatAt row.lastHeartbeatAt

def appliedDepth (tenantId : Uuid) (e : Step) : Option Int :=
  (reported tenantId e).bind fun report =>
    if applies (runtimeRow e.before.committed tenantId) report.2 then report.2.awaitingApproval
    else none

def lastDepth (tenantId : Uuid) (initial : Int) : List Step → Int
  | [] => initial
  | e :: earlier => (appliedDepth tenantId e).getD (lastDepth tenantId initial earlier)

def rises (tenantId : Uuid) (initial : Int) : List Step → Nat
  | [] => 0
  | e :: earlier => rises tenantId initial earlier +
      if (appliedDepth tenantId e).any (lastDepth tenantId initial earlier < ·) then 1 else 0

def announces (channel : NotifierChannelRow) (row : OutboxRow) : Bool :=
  row.event = .approvalsPending && row.channelId = channel.id

def announcesAt (channel : NotifierChannelRow) (e : Step) : Key → Bool
  | .outbox id => (e.before.committed.lookup (.outbox id)).isNone &&
      (e.after.committed.lookup (.outbox id)).any (announces channel)
  | _ => false

def announced (channel : NotifierChannelRow) (e : Step) : Nat :=
  (e.after.committed.keys.filter (announcesAt channel e)).length

def announcements (channel : NotifierChannelRow) : List Step → Nat
  | [] => 0
  | e :: earlier => announcements channel earlier + announced channel e

/-- What a report looked up before its transaction is not so far from what it meets that it announces
a depth that is no edge, or misses one that is. -/
def UpToDate (tenantId : Uuid) (initial : Int) (earlier : List Step) (e : Step) : Prop :=
  ∀ sid input seen, reported tenantId e = some (sid, input) → firstSeen sid earlier = some seen →
    match appliedDepth tenantId e with
    | some depth =>
      (storedDepth seen tenantId).getD 0 < depth ↔ lastDepth tenantId initial earlier < depth
    | none =>
      (storedDepth e.before.committed tenantId).getD 0 ≤ (storedDepth seen tenantId).getD 0

section Tally

variable {channel : NotifierChannelRow} {event : NotifierEvent} {channels : List NotifierChannelRow}
  {w w' : AList Row}

theorem announces_eq_true {row : OutboxRow} :
    announces channel row = true ↔ row.event = .approvalsPending ∧ row.channelId = channel.id := by
  simp [announces]

def Quiet (channel : NotifierChannelRow) (w : AList Row) : Prop :=
  ∀ id row, w.lookup (.outbox id) = some row → announces channel row = false

def Once (channel : NotifierChannelRow) (w : AList Row) : Prop :=
  ∃ id row, w.lookup (.outbox id) = some row ∧ announces channel row = true ∧
    ∀ id' row', w.lookup (.outbox id') = some row' → announces channel row' = true → id' = id

theorem Quiet.added (hquiet : Quiet channel w) (hadded : Added event channels w w')
    (hother : event ≠ .approvalsPending ∨ ∀ known ∈ channels, known.id ≠ channel.id) :
    Quiet channel w' := by
  intro id row hrow
  cases hold : w.lookup (.outbox id) with
  | some old =>
    rw [hadded.kept _ old hold, some.injEq] at hrow
    exact hrow ▸ hquiet id old hold
  | none =>
    obtain ⟨hevent, known, hmem, hid⟩ := hadded.only id row hold hrow
    obtain hne | hne := hother
    · simp [announces, hevent, hne]
    · simp [announces, hid, hne known hmem]

theorem Quiet.once (hquiet : Quiet channel w) (hadded : Added .approvalsPending channels w w')
    (hmem : channel ∈ channels) : Once channel w' := by
  obtain ⟨id, row, hnone, hrow, hid⟩ := hadded.each channel hmem
  have hevent := (hadded.only id row hnone hrow).1
  refine ⟨id, row, hrow, by simp [announces, hevent, hid], fun id' row' hrow' hannounces => ?_⟩
  cases hold : w.lookup (.outbox id') with
  | some old =>
    rw [hadded.kept _ old hold, some.injEq] at hrow'
    rw [← hrow', hquiet id' old hold] at hannounces
    cases hannounces
  | none =>
    have hsame := (announces_eq_true.mp hannounces).2
    exact hadded.once id' id row' row hold hnone hrow' hrow (hsame.trans hid.symm)

end Tally

/-- A report's transaction announces the depth it has written, if that is above the one looked up.
-/
def Tells (channel : NotifierChannelRow) (tenantId : Uuid) (seen w : AList Row) : Prop :=
  match runtimeRow w tenantId with
  | some row =>
    if (storedDepth seen tenantId).getD 0 < row.awaitingApproval.getD 0 then Once channel w
    else Quiet channel w
  | none => Quiet channel w

inductive Phase
  | other (seen : Option (AList Row))
  | asking
  | asked (seen : AList Row)

def Phase.memory : Phase → Option (AList Row)
  | .other seen => seen
  | .asking => none
  | .asked seen => some seen

def Phase.reports : Phase → Bool
  | .other _ => false
  | _ => true

structure Move (channel : NotifierChannelRow) (tenantId : Uuid) (g : Phase)
    (o : Op Row ManagementRequest) (c : Scene Row Upstream) (g' : Phase) : Prop where
  recalls : g'.memory = recollect g.memory o c
  role : g'.reports = g.reports
  tells : o = .commit → g.reports = true → ∃ seen, g = .asked seen ∧ Tells channel tenantId seen c.writes

def script (db : AList Row) (channel : NotifierChannelRow) (tenantId : Uuid) :
    Script Row ManagementRequest Upstream Phase where
  known _ c := SameChannels db c.committed
  move g o c g' _ := Move channel tenantId g o c g'

section Follows

variable {cfg : Config} {db : AList Row} {channel : NotifierChannelRow} {tenantId id : Uuid}
  {seen w : AList Row} {E : ApiError → AList Row → Phase → Prop}

theorem passes (K : Key → Prop) (seen : AList Row) :
    (script db channel tenantId).PassesAt schema K (.asked seen) := by
  intro o c answer c' _ hspares _
  refine ⟨(recall_some seen o c).symm, rfl, ?_⟩
  rintro rfl
  simp [Op.Spares] at hspares

def tallied : Key → Prop
  | .runtime _ | .outbox _ | .channel _ => True
  | _ => False

/-- A transaction that has announced nothing and written only the runtime row of its tenant. -/
structure Untold (channel : NotifierChannelRow) (id : Uuid) (row : RuntimeStatusRow) (w : AList Row) :
    Prop where
  quiet : Quiet channel w
  runtime : runtimeRow w id = some row
  alone : ∀ other, other ≠ id → runtimeRow w other = none
  channels : ∀ other, w.lookup (.channel other) = none

variable {row : RuntimeStatusRow} {w' : AList Row} {payload : Json}
  {Q : Unit → AList Row → Phase → Prop}

theorem Untold.congr (huntold : Untold channel id row w) (hagree : AgreeOn tallied w w') :
    Untold channel id row w' where
  quiet other row hrow := huntold.quiet other row (by rw [← hagree (.outbox other) trivial, hrow])
  runtime := (hagree (.runtime id) trivial).trans huntold.runtime
  alone other hne := (hagree (.runtime other) trivial).trans (huntold.alone other hne)
  channels other := (hagree (.channel other) trivial).trans (huntold.channels other)

theorem Untold.added {event : NotifierEvent} {channels : List NotifierChannelRow}
    (huntold : Untold channel id row w) (hadded : Added event channels w w')
    (hother : event ≠ .approvalsPending ∨ ∀ known ∈ channels, known.id ≠ channel.id) :
    Untold channel id row w' where
  quiet := huntold.quiet.added hadded hother
  runtime := (hadded.others (.runtime id) (by simp)).trans huntold.runtime
  alone other hne := (hadded.others (.runtime other) (by simp)).trans (huntold.alone other hne)
  channels other := (hadded.others (.channel other) (by simp)).trans (huntold.channels other)

theorem follows_enqueue {event : NotifierEvent} (hkeyed : KeyedChannels db)
    (huntold : Untold channel id row w) (hE : ∀ e w, E e w (.asked seen))
    (hQ : ∀ w' channels, (∀ known, known ∈ channels ↔ known ∈ channelsOf db ∧
      subscribes id event known = true) → Added event channels w w' → Q () w' (.asked seen)) :
    Follows schema (script db channel tenantId) (enqueueEventTx id event payload) w
      (.asked seen) Q E := by
  refine follows_enqueueEventTx (passes (fun _ => False) seen) hkeyed
    (fun c hknown hwrites other => ?_) hE hQ
  rw [Scene.lookup_seen, hwrites, huntold.channels, none_or]
  exact hknown other

structure StaysUntold (db : AList Row) (channel : NotifierChannelRow) (tenantId id : Uuid)
    (row : RuntimeStatusRow) (seen : AList Row) (h : Handler Unit) : Prop where
  follows : ∀ (w : AList Row) (Q : Unit → AList Row → Phase → Prop)
    (E : ApiError → AList Row → Phase → Prop),
    Untold channel id row w → (∀ e w', E e w' (.asked seen)) →
    (∀ w', Untold channel id row w' → Q () w' (.asked seen)) →
    Follows schema (script db channel tenantId) h w (.asked seen) Q E

namespace StaysUntold

variable {row : RuntimeStatusRow}

theorem event {event : NotifierEvent} {payload : Json} (hkeyed : KeyedChannels db)
    (hevent : event ≠ .approvalsPending) :
    StaysUntold db channel tenantId id row seen (enqueueEventTx id event payload) :=
  ⟨fun _ _ _ huntold hE hQ => follows_enqueue hkeyed huntold hE
    fun w' _ _ hadded => hQ w' (huntold.added hadded (.inl hevent))⟩

theorem bind {first second : Handler Unit} (hfirst : StaysUntold db channel tenantId id row seen first)
    (hsecond : StaysUntold db channel tenantId id row seen second) :
    StaysUntold db channel tenantId id row seen (first >>= fun _ => second) :=
  ⟨fun _ _ _ huntold hE hQ => .bind (hfirst.follows _ _ _ huntold hE
    fun _ huntold' => hsecond.follows _ _ _ huntold' hE hQ)⟩

theorem whenever {condition : Prop} [Decidable condition] {body : Handler Unit}
    (hbody : StaysUntold db channel tenantId id row seen body) :
    StaysUntold db channel tenantId id row seen (whenever condition body) :=
  ⟨fun _ _ _ huntold hE hQ => .whenever
    (fun _ => hbody.follows _ _ _ huntold hE hQ) fun _ => hQ _ huntold⟩

theorem forSome {α : Type} {value : Option α} {body : α → Handler Unit}
    (hbody : ∀ a, value = some a → StaysUntold db channel tenantId id row seen (body a)) :
    StaysUntold db channel tenantId id row seen (Handler.forSome value body) :=
  ⟨fun _ _ _ huntold hE hQ => .forSome
    (fun a ha => (hbody a ha).follows _ _ _ huntold hE hQ) fun _ => hQ _ huntold⟩

theorem of_spares {h : Handler Unit} (hspares : Handler.Spares tallied false h) :
    StaysUntold db channel tenantId id row seen h :=
  ⟨fun _ _ _ huntold hE hQ => .of_stays (passes tallied seen) hspares
    (fun _ w' hagree => hQ w' (huntold.congr hagree)) fun e w' _ => hE e w'⟩

theorem raiseOutreachAlerts {input : RuntimeReportRequest} {now : Instant}
    (hkeyed : KeyedChannels db) :
    StaysUntold db channel tenantId id row seen (Store.raiseOutreachAlerts id input now) := by
  refine ⟨fun w Q E huntold hE hQ => ?_⟩
  unfold Store.raiseOutreachAlerts
  split_ifs
  · exact .pure (hQ w huntold)
  · refine .bind (.lock (passes tallied seen) fun _ _ _ => ?_)
    refine .bind (.of_stays (passes tallied seen)
      (.upsert (by simp [tallied])) (fun _ w' hagree => ?_) fun e w' _ => hE e w')
    refine (bind (whenever (event hkeyed ?_)) (bind (forSome fun _ _ => whenever (event hkeyed ?_))
      (forSome fun _ _ => whenever (event hkeyed ?_)))).follows _ _ _ (huntold.congr hagree) hE hQ
    all_goals simp

end StaysUntold

theorem healthEvent_ne {firstReport : Bool} {health : RuntimeHealth} {event : NotifierEvent}
    (hevent : healthEvent firstReport health = some event) : event ≠ .approvalsPending := by
  rintro rfl
  cases health <;> cases firstReport <;> simp [healthEvent] at hevent

theorem ne_of_subscribes {event : NotifierEvent} {known : NotifierChannelRow}
    (hkeyed : KeyedChannels db) (hchannel : channel ∈ channelsOf db)
    (hsubscribes : subscribes tenantId .approvalsPending channel = true)
    (hmem : known ∈ channelsOf db) (hknown : subscribes id event known = true)
    (hne : id ≠ tenantId) : known.id ≠ channel.id := by
  intro hid
  obtain ⟨i, hi⟩ := mem_channelsOf.mp hmem
  obtain ⟨j, hj⟩ := mem_channelsOf.mp hchannel
  have hsame : i = j := by rw [← hkeyed i known hi, ← hkeyed j channel hj, hid]
  obtain rfl : known = channel := by
    subst hsame
    exact some.inj (hi.symm.trans hj)
  simp only [subscribes, Bool.and_eq_true, decide_eq_true_eq] at hsubscribes hknown
  exact hne (hknown.1.1.symm.trans hsubscribes.1.1)

theorem follows_announce {previous : Int} (hkeyed : KeyedChannels db)
    (hchannel : channel ∈ channelsOf db)
    (hsubscribes : subscribes tenantId .approvalsPending channel = true)
    (hprevious : previous = (storedDepth seen id).getD 0) (huntold : Untold channel id row w)
    (hE : ∀ e w, E e w (.asked seen))
    (hQ : ∀ w', Tells channel tenantId seen w' → Q () w' (.asked seen)) :
    Follows schema (script db channel tenantId)
      (whenever (previous < row.awaitingApproval.getD 0)
        (enqueueEventTx id .approvalsPending payload)) w (.asked seen) Q E := by
  by_cases hid : id = tenantId
  · subst hid
    refine .whenever (fun hrise => ?_) fun hflat => hQ w ?_
    · refine follows_enqueue hkeyed huntold hE fun w' channels hchannels hadded => hQ w' ?_
      have hruntime : runtimeRow w' id = some row :=
        (hadded.others (.runtime id) (by simp)).trans huntold.runtime
      rw [Tells, hruntime]
      dsimp only
      rw [if_pos (hprevious ▸ hrise)]
      exact huntold.quiet.once hadded ((hchannels channel).mpr ⟨hchannel, hsubscribes⟩)
    · rw [Tells, huntold.runtime]
      dsimp only
      rw [if_neg (hprevious ▸ hflat)]
      exact huntold.quiet
  · -- a report of another tenant
    have hquiet {w' : AList Row} (huntold' : Untold channel id row w') :
        Tells channel tenantId seen w' := by
      rw [Tells, huntold'.alone tenantId (Ne.symm hid)]
      exact huntold'.quiet
    refine .whenever (fun _ => ?_) fun _ => hQ w (hquiet huntold)
    refine follows_enqueue hkeyed huntold hE fun w' channels hchannels hadded =>
      hQ w' (hquiet (huntold.added hadded (.inr fun known hmem => ?_)))
    obtain ⟨hmem, hknown⟩ := (hchannels known).mp hmem
    exact ne_of_subscribes hkeyed hchannel hsubscribes hmem hknown hid

theorem follows_report {rawSlug : String} {input : RuntimeReportRequest} (hkeyed : KeyedChannels db)
    (hchannel : channel ∈ channelsOf db)
    (hsubscribes : subscribes tenantId .approvalsPending channel = true) :
    Follows schema (script db channel tenantId) (Routes.reportRuntime cfg rawSlug input) ∅
      .asking (fun _ _ _ => True) fun _ _ _ => True := by
  refine .bind (.require (fun slug _ => ?_) fun _ _ => trivial)
  refine .bind (.ask ?_)
  rintro c utc c' _ hwrites ⟨rfl, rfl⟩
  refine ⟨.asking, ⟨rfl, rfl, by simp⟩, ?_⟩
  rw [hwrites]
  refine .bind (.require (fun _ _ => ?_) fun _ _ => trivial)
  refine .bind (.bind (.ask ?_))
  rintro c₁ _ c' _ hwrites₁ ⟨rfl, rfl⟩
  refine ⟨.asked c'.seen, ⟨rfl, rfl, by simp⟩, ?_⟩
  rw [hwrites₁]
  generalize c'.seen = seen
  refine .bind (.okOr (fun tenant _ => ?_) fun _ => trivial)
  refine .bind (.utcNow (passes tallied seen) fun now => ?_)
  refine .pure ?_
  have hdrop (w : AList Row) :
      (script db channel tenantId).Drops (.asked seen) w fun _ => True :=
    fun _ _ _ => ⟨.asked seen, ⟨rfl, rfl, by simp⟩, trivial⟩
  refine .inTransaction fun _ _ _ => ⟨.asked seen, ⟨rfl, rfl, by simp⟩, ?_⟩
  refine .bind (.sqlNow (passes tallied seen) fun began _ _ => ?_)
  refine .bind (.upsert (fun c₂ _ _ => ?_) fun _ e _ _ =>
    ⟨.asked seen, ⟨rfl, rfl, by simp⟩, hdrop _⟩)
  refine ⟨.asked seen, ⟨rfl, rfl, by simp⟩, ?_⟩
  generalize (c₂.seen.lookup (.runtime (summary cfg seen now tenant).tenant.id)).elim _ _ = row
  have huntold : Untold channel tenant.id row (insert (.runtime tenant.id) row ∅) := by
    refine ⟨fun other outbox houtbox => ?_, lookup_insert _, fun other hne => ?_, fun other => ?_⟩
    · rw [lookup_insert_ne (by simp)] at houtbox
      simp at houtbox
    · rw [runtimeRow, lookup_insert_ne (by simpa using hne)]
      rfl
    · rw [lookup_insert_ne (by simp)]
      rfl
  refine .bind ((StaysUntold.forSome fun fans _ => StaysUntold.of_spares
    (.bind (.insert (by simp [tallied])) fun _ => .pure _)).follows _ _ _ huntold (fun _ => hdrop)
    fun w₁ huntold₁ => ?_)
  refine .bind (.utcNow (passes tallied seen) fun utc => ?_)
  refine .bind ((StaysUntold.whenever (StaysUntold.forSome fun event hevent =>
    StaysUntold.event hkeyed (healthEvent_ne hevent))).follows _ _ _ huntold₁ (fun _ => hdrop)
    fun w₂ huntold₂ => ?_)
  refine .bind ((StaysUntold.raiseOutreachAlerts hkeyed).follows _ _ _ huntold₂
    (fun _ => hdrop) fun w₃ huntold₃ => ?_)
  refine .bind (follows_announce hkeyed hchannel hsubscribes rfl huntold₃ (fun _ => hdrop)
    fun w₄ htells => ?_)
  refine .pure fun c₃ _ hwrites₃ => ⟨.asked seen, ⟨rfl, rfl, fun _ _ => ?_⟩, trivial⟩
  exact ⟨seen, rfl, hwrites₃ ▸ htells⟩

def first : Call → Phase
  | .report .. => .asking
  | _ => .other none

theorem follows_handle (hkeyed : KeyedChannels db) (hchannel : channel ∈ channelsOf db)
    (hsubscribes : subscribes tenantId .approvalsPending channel = true) (call : Call) :
    ((server cfg).handler call).Follows (server cfg).schema (script db channel tenantId) ∅ (first call)
      fun _ _ _ => True := by
  by_cases hreport : ∃ slug input, call = .report slug input
  · obtain ⟨slug, input, rfl⟩ := hreport
    exact follows_run (.map (follows_report hkeyed hchannel hsubscribes))
  · have hfirst : first call = .other none := by
      cases call with
      | report slug input => exact absurd ⟨slug, input, rfl⟩ hreport
      | _ => rfl
    rw [hfirst]
    refine Prog.follows_of_closed (P := fun g => g.reports = false) (fun g o c c' hg => ?_)
      (fun _ _ _ _ => trivial) rfl
    refine ⟨.other (recollect g.memory o c), rfl, rfl, hg.symm, fun _ hreports => ?_⟩
    rw [hg] at hreports
    cases hreports

end Follows

section Runs

variable {cfg : Config} {db : AList Row} {channel : NotifierChannelRow} {tenantId : Uuid}
  {history earlier : List Step} {e : Step} {s t : State} {γ : Nat → Phase}

def suits (call : Call) (g : Phase) : Prop := g.reports = (first call).reports

structure Holds (cfg : Config) (db : AList Row) (history : List Step) (s : State) (γ : Nat → Phase) :
    Prop where
  protocol : (protocol cfg).Holds s
  channels : SameChannels db s.committed
  recalled : Recalled recollect none Phase.memory history s γ
  roles : Suited suits s γ

theorem Holds.step {γ' : Nat → Phase} (hI : Holds cfg db history e.before γ)
    (hstep : step (server cfg) e.before e.action = some e.after)
    (hrecalled : Recalled recollect none Phase.memory (e :: history) e.after γ')
    (hroles : Suited suits e.after γ') : Holds cfg db (e :: history) e.after γ' :=
  ⟨hI.protocol.step protocol_metBy hstep, Failures.sameChannels_step hI.protocol hstep hI.channels,
    hrecalled, hroles⟩

theorem keeps_holds : (script db channel tenantId).Keeps (server cfg) anyStep (fun _ => first)
    (Holds cfg db) where
  start _ _ _ _ call _ hI _ hstep hnew ht :=
    hI.step hstep (hI.recalled.start hnew ht (by cases call <;> rfl))
      (ht ▸ hI.roles.setSession fun _ => rfl)
  known _ _ _ _ _ _ _ _ hI _ := hI.channels
  run _ _ _ sid _ call _ _ tx _ _ _ _ _ hI _ hstep hsession _ hmove ht :=
    hI.step hstep (hI.recalled.run hsession ht hmove.recalls)
      (ht ▸ hI.roles.setSession fun _ => hmove.role.trans (hI.roles sid call _ tx hsession))
  crash _ _ _ _ _ _ _ _ hI _ hstep hsession ht :=
    hI.step hstep (hI.recalled.crash ht) (ht ▸ hI.roles.crash)
  tick _ _ _ _ _ hI _ hstep ht := hI.step hstep (hI.recalled.tick (ht ▸ rfl)) (ht ▸ hI.roles)

variable {sid : Nat} {slug : String} {input : RuntimeReportRequest} {tx : Txn Row}

/-- Whoever commits a report has looked before, and announces what it has written against that. -/
theorem tells_of_run {next} {tx : Txn Row} (hboot : Booted cfg s)
    (hkeyed : KeyedChannels s.committed) (hchannel : channel ∈ channelsOf s.committed)
    (hsubscribes : subscribes tenantId .approvalsPending channel = true)
    (hrun : Run (server cfg) anyStep s history t)
    (hsession : t.sessions sid = some ⟨.report slug input, some (.op .commit next), tx⟩) :
    ∃ seen, firstSeen sid history = some seen ∧ Tells channel tenantId seen tx.writes := by
  have hinit : Holds cfg s.committed [] s fun _ => .other none := by
    refine ⟨holds_of_booted hboot, fun _ => rfl, .nil fun _ => rfl, fun sid call p tx hsession => ?_⟩
    simp [hboot.atRest.1 sid] at hsession
  obtain ⟨γ, hholds, hfollowed⟩ := keeps_holds.run_induct
    (fun _ _ call _ => follows_handle hkeyed hchannel hsubscribes call)
    ⟨_, hinit, .of_atRest hboot.atRest⟩ hrun
  have hexec : (Op.commit : Op Row ManagementRequest).exec (server cfg).schema sid ⟨[], .answered⟩
      t.toShared tx = some ((), _, _) := rfl
  obtain ⟨g, hmove, -⟩ := hfollowed.moves hholds.channels hsession hexec
  obtain ⟨seen, hseen, htells⟩ := hmove.tells rfl (hholds.roles sid _ _ tx hsession)
  refine ⟨seen, ?_, htells⟩
  rw [firstSeen, ← hholds.recalled.view_eq sid, hseen]
  rfl

def depthAfter (old : Option RuntimeStatusRow) (input : RuntimeReportRequest) : Option Int :=
  if applies old input then input.awaitingApproval.or (old.bind (·.awaitingApproval))
  else old.bind (·.awaitingApproval)

def heartbeatAfter (old : Option RuntimeStatusRow) (input : RuntimeReportRequest) : Option Instant :=
  if applies old input then input.lastHeartbeatAt.or (old.bind (·.lastHeartbeatAt))
  else old.bind (·.lastHeartbeatAt)

structure Merged (input : RuntimeReportRequest) (old : Option RuntimeStatusRow) (new : RuntimeStatusRow) :
    Prop where
  depth : new.awaitingApproval = depthAfter old input
  heartbeat : new.lastHeartbeatAt = heartbeatAfter old input

theorem merged_report (input : RuntimeReportRequest) (now : Instant) (old : Option RuntimeStatusRow) :
    Merged input old (old.elim (reportedRow tenantId input now) (mergeReport input now)) := by
  cases old with
  | none => constructor <;> simp [depthAfter, heartbeatAfter, applies, reportedRow]
  | some row =>
    by_cases hnew : notOlder input.lastHeartbeatAt row.lastHeartbeatAt = true <;>
      constructor <;> simp [depthAfter, heartbeatAfter, applies, mergeReport, hnew]

variable {old : Option RuntimeStatusRow} {mid new : RuntimeStatusRow}

theorem Merged.applies_eq (hmid : Merged input old mid) :
    applies (some mid) input = applies old input := by
  have hheartbeat := hmid.heartbeat
  cases happlies : applies old input with
  | true =>
    rw [heartbeatAfter, if_pos happlies] at hheartbeat
    cases hinput : input.lastHeartbeatAt <;>
      simp [applies, hheartbeat, hinput, notOlder]
  | false =>
    rw [heartbeatAfter, if_neg (by simp [happlies])] at hheartbeat
    cases old with
    | none => simp [applies] at happlies
    | some row =>
      rw [← happlies]
      simp only [applies, all_some, hheartbeat, bind_some]

theorem Merged.trans (hmid : Merged input old mid) (hnew : Merged input (some mid) new) :
    Merged input old new := by
  have hdepth := hnew.depth
  have hheartbeat := hnew.heartbeat
  rw [depthAfter, hmid.applies_eq, bind_some, hmid.depth] at hdepth
  rw [heartbeatAfter, hmid.applies_eq, bind_some, hmid.heartbeat] at hheartbeat
  constructor
  · rw [hdepth, depthAfter]
    split_ifs
    · rw [← Option.or_assoc, Option.or_self]
    · rfl
  · rw [hheartbeat, heartbeatAfter]
    split_ifs
    · rw [← Option.or_assoc, Option.or_self]
    · rfl

variable {readings : List Instant}

theorem merged_of_chain
    (hchain : Chain (callWrites cfg (.report slug input)) readings (.runtime tenantId) old new) :
    Merged input old new := by
  refine hchain.relates (R := fun old new => Merged input old new) ?_ ?_
  · intro rs access old new _ hwrite
    cases hwrite with
    | report slug' input' hcall now =>
      obtain ⟨-, rfl⟩ := Call.report.inj hcall
      exact merged_report input now old
    | deployed _ _ _ _ hcall => cases hcall
  · intro old mid new hmid hnew
    exact Merged.trans hmid hnew

variable {row : OutboxRow} {call : Call} {id : Uuid} {choice : Choice Key}

theorem silent_of_chain (hcall : ∀ slug input, call ≠ .report slug input)
    (hchain : Chain (callWrites cfg call) readings (.outbox id) none row) :
    announces channel row = false := by
  by_cases hdispatch : ∃ deliver, call = .dispatch deliver
  · obtain ⟨deliver, rfl⟩ := hdispatch
    obtain ⟨_, _, _, _, hwrite⟩ := hchain.first
    cases hwrite with
    | enqueued event hnotifies => exact hnotifies.elim
  · refine hchain.invariant (I := fun row => announces channel row = false) ?_ (by simp)
    intro rs access old new _ hwrite
    cases hwrite with
    | dispatched deliver heq => exact absurd ⟨deliver, heq⟩ hdispatch
    | enqueued event hnotifies payload now known =>
      have hevent : event = .provisioningFailed := by
        cases call with
        | report slug input => exact absurd rfl (hcall slug input)
        | fail => exact hnotifies
        | _ => exact hnotifies.elim
      simp [announces, Store.enqueued, hevent]

theorem unsent_of_chain {old : Option OutboxRow}
    (hchain : Chain (callWrites cfg (.report slug input)) readings (.outbox id) old row) :
    old = none := by
  obtain ⟨_, _, _, _, hwrite⟩ := hchain.first
  cases hwrite with
  | enqueued => rfl
  | dispatched _ hcall => cases hcall

theorem announcesAt_eq_true {key : Key} (hkey : announcesAt channel e key = true) :
    ∃ id row, key = .outbox id ∧ e.before.committed.lookup (.outbox id) = none ∧
      e.after.committed.lookup (.outbox id) = some row ∧ announces channel row = true := by
  cases key with
  | outbox id =>
    obtain ⟨hnone, row, hrow⟩ : _ ∧ ∃ row, _ := by simpa [announcesAt, any_eq_true] using hkey
    exact ⟨id, row, rfl, hnone, hrow⟩
  | _ => cases hkey

theorem announced_eq_zero (hsilent : ∀ id row, e.before.committed.lookup (.outbox id) = none →
    e.after.committed.lookup (.outbox id) = some row → announces channel row = false) :
    announced channel e = 0 := by
  rw [announced, List.length_eq_zero_iff, List.filter_eq_nil_iff]
  intro key _ hkey
  obtain ⟨id, row, -, hnone, hrow, hannounces⟩ := announcesAt_eq_true hkey
  rw [hsilent id row hnone hrow] at hannounces
  cases hannounces

theorem announced_eq_one (hnone : e.before.committed.lookup (.outbox id) = none)
    (hrow : e.after.committed.lookup (.outbox id) = some row)
    (hannounces : announces channel row = true)
    (honly : ∀ id' row', e.before.committed.lookup (.outbox id') = none →
      e.after.committed.lookup (.outbox id') = some row' → announces channel row' = true → id' = id) :
    announced channel e = 1 := by
  have hperm : (e.after.committed.keys.filter (announcesAt channel e)).Perm [.outbox id] := by
    rw [List.perm_ext_iff_of_nodup (e.after.committed.keys_nodup.filter _) (List.nodup_singleton _)]
    intro key
    rw [List.mem_filter, List.mem_singleton]
    constructor
    · rintro ⟨-, hkey⟩
      obtain ⟨id', row', rfl, hnone', hrow', hannounces'⟩ := announcesAt_eq_true hkey
      rw [honly id' row' hnone' hrow' hannounces']
    · rintro rfl
      have hmem : Key.outbox id ∈ e.after.committed := lookup_isSome.mp (by simp [hrow])
      exact ⟨mem_keys.mp hmem, by simp [announcesAt, hnone, hrow, hannounces]⟩
  rw [announced, hperm.length_eq]
  rfl

theorem announced_of_quiet {choice : Choice Key} {call : Call} {next} {tx : Txn Row}
    (hstep : step (server cfg) e.before e.action = some e.after)
    (haction : e.action = .run sid choice)
    (hsession : e.before.sessions sid = some ⟨call, some (.op .commit next), tx⟩)
    (hquiet : Quiet channel tx.writes) : announced channel e = 0 := by
  rw [haction] at hstep
  refine announced_eq_zero fun id row hnone hrow => hquiet id row ?_
  rwa [commit_step hsession hstep, lookup_union, hnone, or_none] at hrow

variable (hboot : Booted cfg s) (hkeyed : KeyedChannels s.committed)
  (hchannel : channel ∈ channelsOf s.committed)
  (hsubscribes : subscribes tenantId .approvalsPending channel = true)
  (hrun : Run (server cfg) anyStep s earlier e.before)
  (hstep : step (server cfg) e.before e.action = some e.after)
include hboot hrun hstep

theorem announced_of_once {choice : Choice Key} {next} {tx : Txn Row}
    (haction : e.action = .run sid choice)
    (hsession : e.before.sessions sid = some ⟨.report slug input, some (.op .commit next), tx⟩)
    (honce : Once channel tx.writes) : announced channel e = 1 := by
  obtain ⟨id, row, hrow, hannounces, honly⟩ := honce
  have hholds := holds_of_reaches hboot hrun.reaches
  have hnone : e.before.committed.lookup (.outbox id) = none :=
    unsent_of_chain (hholds.linked sid _ hsession (.outbox id) row hrow)
  rw [haction] at hstep
  have hcommitted := commit_step hsession hstep
  refine announced_eq_one hnone ?_ hannounces fun id' row' hnone' hrow' => honly id' row' ?_
  · rw [hcommitted, lookup_union, hrow, some_or]
  · rwa [hcommitted, lookup_union, hnone', or_none] at hrow'

include hkeyed hchannel hsubscribes

theorem announced_of_unreported (hreported : reported tenantId e = none) : announced channel e = 0 := by
  have hholds := holds_of_reaches hboot hrun.reaches
  cases Protocol.outcome hstep hholds with
  | unchanged hsame =>
    refine announced_eq_zero fun id row hnone hrow => ?_
    rw [hsame, hnone] at hrow
    cases hrow
  | commits sid choice call next tx haction hsession _ hcommitted =>
    by_cases hreport : ∃ slug input, call = .report slug input
    · obtain ⟨slug, input, rfl⟩ := hreport
      obtain ⟨seen, -, htells⟩ :=
        tells_of_run hboot hkeyed hchannel hsubscribes hrun hsession
      have hmem : Key.runtime tenantId ∉ tx.writes := by
        simpa [reported, haction, hsession] using hreported
      have hnone : runtimeRow tx.writes tenantId = none := lookup_eq_none.mpr hmem
      rw [Tells, hnone] at htells
      exact announced_of_quiet hstep haction hsession htells
    · refine announced_eq_zero fun id row hnone hrow => ?_
      rw [hcommitted, lookup_union, hnone, or_none] at hrow
      have hchain := hholds.linked sid _ hsession (.outbox id) row hrow
      rw [hnone] at hchain
      exact silent_of_chain (fun slug input h => hreport ⟨slug, input, h⟩) hchain

theorem announced_of_reported (hreported : reported tenantId e = some (sid, input)) :
    ∃ seen, firstSeen sid earlier = some seen ∧
      announced channel e = if (storedDepth seen tenantId).getD 0 <
        (depthAfter (runtimeRow e.before.committed tenantId) input).getD 0 then 1 else 0 := by
  have hholds := holds_of_reaches hboot hrun.reaches
  unfold reported at hreported
  split at hreported
  · rename_i sid' choice haction
    split at hreported
    · rename_i slug input' next tx hsession
      split_ifs at hreported with hmem
      obtain ⟨rfl, rfl⟩ := Prod.mk.inj (some.inj hreported)
      obtain ⟨seen, hseen, htells⟩ := tells_of_run hboot hkeyed hchannel hsubscribes hrun hsession
      refine ⟨seen, hseen, ?_⟩
      obtain ⟨row, hrow⟩ := isSome_iff_exists.mp (lookup_isSome.mpr hmem)
      have hdepth : row.awaitingApproval =
          depthAfter (runtimeRow e.before.committed tenantId) input' :=
        (merged_of_chain (hholds.linked _ _ hsession (.runtime tenantId) row hrow)).depth
      rw [Tells, show runtimeRow tx.writes tenantId = some row from hrow] at htells
      dsimp only at htells
      rw [hdepth] at htells
      split_ifs at htells with hrise
      · rw [if_pos hrise]
        exact announced_of_once hboot hrun hstep haction hsession htells
      · rw [if_neg hrise]
        exact announced_of_quiet hstep haction hsession htells
    · simp at hreported
  · simp at hreported

theorem announced_eq_iff {initial : Int} :
    announced channel e =
        (if (appliedDepth tenantId e).any (lastDepth tenantId initial earlier < ·) then 1 else 0) ↔
      UpToDate tenantId initial earlier e := by
  cases hreported : reported tenantId e with
  | none =>
    rw [announced_of_unreported hboot hkeyed hchannel hsubscribes hrun hstep hreported]
    simp [appliedDepth, UpToDate, hreported]
  | some report =>
    obtain ⟨sid, input⟩ := report
    obtain ⟨seen, hseen, hannounced⟩ :=
      announced_of_reported hboot hkeyed hchannel hsubscribes hrun hstep hreported
    have hdate : UpToDate tenantId initial earlier e ↔
        match appliedDepth tenantId e with
        | some depth =>
          (storedDepth seen tenantId).getD 0 < depth ↔ lastDepth tenantId initial earlier < depth
        | none => (storedDepth e.before.committed tenantId).getD 0 ≤
            (storedDepth seen tenantId).getD 0 := by
      constructor
      · exact fun hdate => hdate sid input seen hreported hseen
      · intro hdate sid' input' seen' hreported' hseen'
        obtain ⟨rfl, rfl⟩ := Prod.mk.inj (some.inj (hreported.symm.trans hreported'))
        obtain rfl := some.inj (hseen.symm.trans hseen')
        exact hdate
    have hdepth : (depthAfter (runtimeRow e.before.committed tenantId) input).getD 0 =
        (appliedDepth tenantId e).getD ((storedDepth e.before.committed tenantId).getD 0) := by
      simp only [depthAfter, appliedDepth, hreported, bind_some, storedDepth]
      split_ifs
      · cases input.awaitingApproval <;> simp
      · simp
    rw [hannounced, hdepth, hdate]
    cases appliedDepth tenantId e with
    | none => simp
    | some depth =>
      by_cases hrise : (storedDepth seen tenantId).getD 0 < depth <;>
        by_cases hedge : lastDepth tenantId initial earlier < depth <;> simp [hrise, hedge]

end Runs

variable {cfg : Config} {channel : NotifierChannelRow} {tenantId : Uuid} {history : List Step}
  {s t : State}

/-- **When approvals are announced exactly.** A subscribed channel gets as many announcements as
applied depths rise exactly if every report that is committed is up to date. -/
theorem approvals_exact_iff (hboot : Booted cfg s) (hkeyed : KeyedChannels s.committed)
    (hchannel : channel ∈ channelsOf s.committed)
    (hsubscribes : subscribes tenantId .approvalsPending channel = true)
    (hrun : Run (server cfg) anyStep s history t) :
    (∀ earlier, earlier <:+ history → announcements channel earlier =
        rises tenantId ((storedDepth s.committed tenantId).getD 0) earlier) ↔
      ∀ earlier e, e :: earlier <:+ history →
        UpToDate tenantId ((storedDepth s.committed tenantId).getD 0) earlier e := by
  generalize (storedDepth s.committed tenantId).getD 0 = initial
  have hstep {earlier : List Step} {e : Step} (hsuffix : e :: earlier <:+ history) :
      announced channel e =
          (if (appliedDepth tenantId e).any (lastDepth tenantId initial earlier < ·) then 1 else 0) ↔
        UpToDate tenantId initial earlier e := by
    obtain ⟨hbefore, -, hact⟩ := hrun.before hsuffix
    exact announced_eq_iff hboot hkeyed hchannel hsubscribes hbefore hact
  constructor
  · intro hexact earlier e hsuffix
    have hwhole := hexact _ hsuffix
    rw [announcements, rises, hexact earlier ((List.suffix_cons e earlier).trans hsuffix)] at hwhole
    exact (hstep hsuffix).mp (Nat.add_left_cancel hwhole)
  · intro hdate earlier hsuffix
    induction earlier with
    | nil => rfl
    | cons e earlier ih =>
      rw [announcements, rises, ih ((List.suffix_cons e earlier).trans hsuffix),
        (hstep hsuffix).mpr (hdate earlier e hsuffix)]

def backlog (depth : Int) : RuntimeReportRequest where
  apiHealthy := none
  workerHealthy := none
  schemaVersion := none
  deployedSha := none
  outboxPending := none
  queueLag := none
  awaitingApproval := some depth
  northStarFans := none
  redditHalted := none
  repliesWaiting := none
  cutCandidateLanes := none
  lastHeartbeatAt := none

def growing : List (Action Key Call) :=
  alone 0 (.report "acme" (backlog 5)) 12 ++ alone 1 (.report "acme" (backlog 5)) 8 ++
    alone 2 (.report "acme" (backlog 7)) 12

def lookingTogether : List (Action Key Call) :=
  alone 0 (.report "acme" (backlog 5)) 3 ++ alone 1 (.report "acme" (backlog 5)) 12 ++
    List.replicate 9 (.run 0 ⟨[], .answered⟩)

theorem demo_subscribes : demoChannel ∈ channelsOf demoNotified.committed ∧
    subscribes 1 .approvalsPending demoChannel = true :=
  ⟨mem_channelsOf.mpr ⟨3, lookup_insert _⟩, rfl⟩

theorem approvals_exact_iff_growing :
    ∃ history t, Run (server demoConfig) anyStep demoNotified history t ∧
      announcements demoChannel history = 2 ∧
      ∀ earlier e, e :: earlier <:+ history → UpToDate 1 0 earlier e := by
  have hrecord : ((recordSchedule (server demoConfig) [] demoNotified growing).any fun p =>
      announcements demoChannel p.1 = 2 && p.1.tails.all fun earlier =>
        announcements demoChannel earlier = rises 1 0 earlier) = true := by decide
  obtain ⟨⟨history, t⟩, hschedule, hcheck⟩ := (any_eq_true _ _).mp hrecord
  rw [Bool.and_eq_true, decide_eq_true_eq] at hcheck
  have hrun := run_of_recordSchedule hschedule
  have hiff := approvals_exact_iff (demoNotified_booted demoConfig) demoNotified_keyed
    demo_subscribes.1 demo_subscribes.2 hrun
  rw [show (storedDepth demoNotified.committed 1).getD 0 = 0 from rfl] at hiff
  refine ⟨history, t, hrun, hcheck.1, hiff.mp fun earlier hsuffix => ?_⟩
  have hexact := List.all_eq_true.mp hcheck.2 earlier ((List.mem_tails _ _).mpr hsuffix)
  simpa using hexact

/-- Two reports of one backlog that have both looked before it was written are both announced. -/
theorem approvals_announced_twice :
    Booted demoConfig demoNotified ∧ KeyedChannels demoNotified.committed ∧
      demoChannel ∈ channelsOf demoNotified.committed ∧
      subscribes 1 .approvalsPending demoChannel = true ∧
      ∃ history t, Run (server demoConfig) anyStep demoNotified history t ∧
        announcements demoChannel history = 2 ∧ rises 1 0 history = 1 := by
  have hrecord : ((recordSchedule (server demoConfig) [] demoNotified lookingTogether).any fun p =>
      announcements demoChannel p.1 = 2 && rises 1 0 p.1 = 1) = true := by decide
  obtain ⟨⟨history, t⟩, hschedule, hcheck⟩ := (any_eq_true _ _).mp hrecord
  simp only [Bool.and_eq_true, decide_eq_true_eq] at hcheck
  exact ⟨demoNotified_booted demoConfig, demoNotified_keyed, demo_subscribes.1, demo_subscribes.2,
    history, t, run_of_recordSchedule hschedule, hcheck⟩

end Approvals

end ControlPlane
