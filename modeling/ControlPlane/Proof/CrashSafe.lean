import ControlPlane.Proof.Lifecycle

/-!
# Parking across deaths

Whenever the envelope is parked the settings it had before are in an unconsumed snapshot, at
whatever operation a request dies and whatever becomes of the answers of the tenant's service.
Requests are handled one at a time.
-/

namespace ControlPlane

open ReadCommitted ReadCommitted.Handler Store Option

/-- What an operator sets: the brain's switches and its four limits. -/
structure Settings where
  agentEnabled : Bool
  dryRun : Bool
  weeklyOwnedAudienceTouches : Int
  weeklyThirdPartyTouches : Int
  subjectCooldownHours : Int
  maxRecipientsPerStep : Int
deriving DecidableEq, Repr

structure Settings.Fits (x : Settings) : Prop where
  weeklyOwnedAudienceTouches :
    0 ≤ x.weeklyOwnedAudienceTouches ∧ x.weeklyOwnedAudienceTouches ≤ 2147483647
  weeklyThirdPartyTouches : 0 ≤ x.weeklyThirdPartyTouches ∧ x.weeklyThirdPartyTouches ≤ 2147483647
  subjectCooldownHours : 0 ≤ x.subjectCooldownHours ∧ x.subjectCooldownHours ≤ 2147483647
  maxRecipientsPerStep : 0 ≤ x.maxRecipientsPerStep ∧ x.maxRecipientsPerStep ≤ 2147483647

def GrowthEnvelope.settings (envelope : GrowthEnvelope) : Settings where
  agentEnabled := envelope.agentEnabled
  dryRun := envelope.dryRun
  weeklyOwnedAudienceTouches := envelope.weeklyOwnedAudienceTouches
  weeklyThirdPartyTouches := envelope.weeklyThirdPartyTouches
  subjectCooldownHours := envelope.subjectCooldownHours
  maxRecipientsPerStep := envelope.maxRecipientsPerStep

def ParkSnapshotRow.settings (row : ParkSnapshotRow) : Settings where
  agentEnabled := row.agentEnabled
  dryRun := row.dryRun
  weeklyOwnedAudienceTouches := row.weeklyOwnedAudienceTouches
  weeklyThirdPartyTouches := row.weeklyThirdPartyTouches
  subjectCooldownHours := row.subjectCooldownHours
  maxRecipientsPerStep := row.maxRecipientsPerStep

def EnvelopeRequest.settings (body : EnvelopeRequest) : Settings where
  agentEnabled := body.agentEnabled
  dryRun := body.dryRun
  weeklyOwnedAudienceTouches := body.weeklyOwnedAudienceTouches
  weeklyThirdPartyTouches := body.weeklyThirdPartyTouches
  subjectCooldownHours := body.subjectCooldownHours
  maxRecipientsPerStep := body.maxRecipientsPerStep

theorem replace_settings {envelope envelope' : GrowthEnvelope} {body : EnvelopeRequest}
    (hreplace : envelope.replace body = some envelope') (hfits : body.settings.Fits) :
    envelope'.settings = body.settings ∧ envelope'.parked = body.parked := by
  obtain ⟨-, hnew⟩ := ite_none_right_eq_some.mp hreplace
  obtain rfl := some.inj hnew
  have howned := Int.toNat_of_nonneg hfits.weeklyOwnedAudienceTouches.1
  have hthird := Int.toNat_of_nonneg hfits.weeklyThirdPartyTouches.1
  have hcooldown := Int.toNat_of_nonneg hfits.subjectCooldownHours.1
  have hrecipients := Int.toNat_of_nonneg hfits.maxRecipientsPerStep.1
  simp only [EnvelopeRequest.settings] at howned hthird hcooldown hrecipients
  refine ⟨?_, rfl⟩
  simp only [GrowthEnvelope.settings, EnvelopeRequest.settings, howned, hthird, hcooldown, hrecipients]

theorem parkSnapshot_settings {envelope : GrowthEnvelope} {tenantId : Uuid} {actor : String}
    {reason : Option String} {posture : Json} (hfits : envelope.settings.Fits) :
    (Routes.parkSnapshot tenantId actor reason envelope.toJson posture).settings =
      envelope.settings := by
  have hlimit (name : String) (fallback : Int) (n : Nat)
      (hget : envelope.toJson.get name = some (.num n)) (hle : (n : Int) ≤ 2147483647) :
      Routes.limitAt name fallback envelope.toJson = n := by
    rw [Routes.limitAt, hget]
    change min (n : Int) 2147483647 = n
    omega
  simp only [Routes.parkSnapshot, ParkSnapshotRow.settings, GrowthEnvelope.settings,
    hlimit "weeklyOwnedAudienceTouches" _ _ rfl hfits.weeklyOwnedAudienceTouches.2,
    hlimit "weeklyThirdPartyTouches" _ _ rfl hfits.weeklyThirdPartyTouches.2,
    hlimit "subjectCooldownHours" _ _ rfl hfits.subjectCooldownHours.2,
    hlimit "maxRecipientsPerStep" _ _ rfl hfits.maxRecipientsPerStep.2]
  rfl

structure Standing where
  tenant : Option TenantRow
  snapshot : Option ParkSnapshotRow
  envelope : GrowthEnvelope

def standing (tenantId : Uuid) (db : AList Row) (up : Upstream) : Standing where
  tenant := db.lookup (.tenant tenantId)
  snapshot := parkSnapshotRow db tenantId
  envelope := (up tenantId).envelope

namespace Standing

structure Intact (settings : Settings) (m : Standing) : Prop where
  fits : m.envelope.settings.Fits
  unparked : m.envelope.parked = false → m.envelope.settings = settings
  parked : m.envelope.parked = true →
    ∃ row, m.snapshot = some row ∧ unconsumed row = true ∧ row.settings = settings

structure Restored (settings : Settings) (m : Standing) : Prop where
  unparked : m.envelope.parked = false
  settings : m.envelope.settings = settings
  consumed : ∃ row, m.snapshot = some row ∧ unconsumed row = false
  active : ∃ tenant, m.tenant = some tenant ∧ tenant.status = .active

variable {settings : Settings} {m : Standing}

/-- What a park saves is what has to be restored: its own reading of an unparked envelope, or else
the snapshot that is there. -/
theorem Intact.savedSnapshot {snapshot : ParkSnapshotRow} {now : Instant} (hintact : m.Intact settings)
    (hsnapshot : snapshot.settings = m.envelope.settings) (hnew : unconsumed snapshot = true) :
    (savedSnapshot snapshot m.envelope.parked now m.snapshot).settings = settings ∧
      unconsumed (ControlPlane.savedSnapshot snapshot m.envelope.parked now m.snapshot) = true := by
  refine ⟨?_, unconsumed_savedSnapshot hnew _⟩
  cases hparked : m.envelope.parked with
  | true =>
    obtain ⟨row, hrow, hwaiting, hsettings⟩ := hintact.parked hparked
    have hkeeps : keepsSnapshot true row = true := by
      simpa [keepsSnapshot, unconsumed] using hwaiting
    rw [hrow, ControlPlane.savedSnapshot, elim_some, if_pos hkeeps]
    exact hsettings
  | false =>
    have hread : ({ snapshot with parkedAt := now } : ParkSnapshotRow).settings = settings :=
      hsnapshot.trans (hintact.unparked hparked)
    cases m.snapshot with
    | none => exact hread
    | some row => simpa [ControlPlane.savedSnapshot, keepsSnapshot] using hread

variable {row : ParkSnapshotRow} {envelope' : GrowthEnvelope}

theorem Intact.snapshot (hintact : m.Intact settings)
    (hrow : m.envelope.parked = true → unconsumed row = true ∧ row.settings = settings) :
    Intact settings { m with snapshot := some row } :=
  ⟨hintact.fits, hintact.unparked, fun hparked => ⟨row, rfl, hrow hparked⟩⟩

theorem Intact.tenant {row : TenantRow} (hintact : m.Intact settings) :
    Intact settings { m with tenant := some row } :=
  ⟨hintact.fits, hintact.unparked, hintact.parked⟩

theorem Intact.parks {snapshot : ParkSnapshotRow} (hintact : m.Intact settings)
    (hsnapshot : snapshot.settings = m.envelope.settings)
    (hrow : row.settings = settings ∧ unconsumed row = true)
    (hreplace : m.envelope.replace (Routes.parkBody snapshot) = some envelope') :
    Intact settings { m with snapshot := some row, envelope := envelope' } := by
  have hfits : (Routes.parkBody snapshot).settings.Fits := by
    have hread : snapshot.settings.Fits := hsnapshot ▸ hintact.fits
    exact ⟨hread.weeklyOwnedAudienceTouches, hread.weeklyThirdPartyTouches,
      hread.subjectCooldownHours, hread.maxRecipientsPerStep⟩
  obtain ⟨hposted, hparked⟩ := replace_settings hreplace hfits
  refine ⟨hposted ▸ hfits, fun hunparked => ?_, fun _ => ⟨row, rfl, hrow.2, hrow.1⟩⟩
  rw [show envelope'.parked = true from hparked] at hunparked
  cases hunparked

theorem Intact.restores {version : Int} (hintact : m.Intact settings) (hfits : settings.Fits)
    (hparked : m.envelope.parked = true) (hrow : m.snapshot = some row)
    (hreplace : m.envelope.replace (Routes.restoreBody row version) = some envelope') :
    Intact settings { m with envelope := envelope' } ∧ envelope'.parked = false := by
  obtain ⟨row', hrow', -, hsettings⟩ := hintact.parked hparked
  obtain rfl := some.inj (hrow.symm.trans hrow')
  have hbody : (Routes.restoreBody row version).settings = settings := hsettings
  obtain ⟨hposted, hunparked⟩ := replace_settings hreplace (hbody.symm ▸ hfits)
  have hlive : envelope'.settings = settings := hposted.trans hbody
  refine ⟨⟨hlive.symm ▸ hfits, fun _ => hlive, fun hstill => ?_⟩, hunparked⟩
  rw [show envelope'.parked = false from hunparked] at hstill
  cases hstill

end Standing

namespace CrashSafe

variable (slug : String) (tenantId : Uuid) (settings : Settings)

structure Known (m : Standing) (c : Scene Row Upstream) : Prop where
  named : Named slug tenantId c.committed
  intact : m.Intact settings
  stands : standing tenantId c.committed c.upstream = m

def script : Script Row ManagementRequest Upstream Standing := .keeping (Known slug tenantId settings)

theorem ignores_script : (script slug tenantId settings).Ignores lifecycleRow fun _ => True := by
  intro m o c c' _ hsame _ hknown
  refine ⟨hknown.named.congr fun id => hsame.committed _ trivial, hknown.intact, ?_⟩
  rw [← hknown.stands, standing, standing, parkSnapshotRow, parkSnapshotRow, hsame.upstream,
    hsame.committed (.tenant tenantId) trivial, hsame.committed (.parkSnapshot tenantId) trivial]

variable {slug tenantId settings} {cfg : Config} {m : Standing}

theorem buffers : Buffers (script slug tenantId settings) m :=
  fun _ _ _ _ hcommitted hupstream _ hknown =>
    ⟨hcommitted ▸ hknown.named, hknown.intact, by rw [hcommitted, hupstream, hknown.stands]⟩

variable {c : Scene Row Upstream}

theorem Known.tenant (hknown : Known slug tenantId settings m c) :
    c.committed.lookup (.tenant tenantId) = m.tenant := congrArg Standing.tenant hknown.stands

theorem Known.snapshot (hknown : Known slug tenantId settings m c) :
    parkSnapshotRow c.committed tenantId = m.snapshot := congrArg Standing.snapshot hknown.stands

theorem Known.envelope (hknown : Known slug tenantId settings m c) :
    (c.upstream tenantId).envelope = m.envelope := congrArg Standing.envelope hknown.stands

variable {row : ParkSnapshotRow} {req : ManagementRequest} {up' : Upstream}

theorem Known.commit_snapshot (hknown : Known slug tenantId settings m c)
    (hwrites : c.writes = AList.insert (.parkSnapshot tenantId) row ∅)
    (hintact : Standing.Intact settings { m with snapshot := some row }) :
    Known slug tenantId settings { m with snapshot := some row } c.committing := by
  refine ⟨hknown.named.congr fun id => lookup_committing_insert hwrites (by simp), hintact, ?_⟩
  rw [← hknown.stands, standing, standing, parkSnapshotRow, lookup_committing_self hwrites,
    lookup_committing_insert hwrites (by simp)]
  rfl

theorem Known.commit_tenant {row : TenantRow} (hknown : Known slug tenantId settings m c)
    (hid : row.id = tenantId) (hwrites : c.writes = AList.insert (.tenant tenantId) row ∅) :
    Known slug tenantId settings { m with tenant := some row } c.committing := by
  refine ⟨hknown.named.commit hid hwrites, hknown.intact.tenant, ?_⟩
  rw [← hknown.stands, standing, standing, parkSnapshotRow, parkSnapshotRow,
    lookup_committing_self hwrites, lookup_committing_insert hwrites (by simp)]
  rfl

theorem served_cases {up : Upstream} {answer : Except ApiError Json}
    (hserved : Served schema req up answer up') :
    (up' req.tenantId = (serveTenant (up req.tenantId) req).2 ∧
      ∀ document, answer = .ok document → (serveTenant (up req.tenantId) req).1 = .ok document) ∨
    up' = up ∧ ∀ document, answer ≠ .ok document := by
  have hserve : (serve req up).2 req.tenantId = (serveTenant (up req.tenantId) req).2 :=
    Function.update_self ..
  obtain hanswered | ⟨hlost, hup | hup⟩ := hserved
  · obtain ⟨hanswer, rfl⟩ := Prod.mk.inj hanswered
    exact .inl ⟨hserve, fun document hok => hanswer.symm.trans hok⟩
  · subst hup
    refine .inl ⟨hserve, fun document hok => ?_⟩
    rw [hlost] at hok
    cases hok
  · refine .inr ⟨hup, fun document hok => ?_⟩
    rw [hlost] at hok
    cases hok

theorem Known.request (hknown : Known slug tenantId settings m c) {m' : Standing}
    (hintact : m'.Intact settings) (hstands : m' = { m with envelope := (up' tenantId).envelope }) :
    Known slug tenantId settings m' { c with upstream := up' } := by
  refine ⟨hknown.named, hintact, ?_⟩
  rw [hstands, ← hknown.stands]
  rfl

theorem follows_request_kept {Q : Except ApiError Json → AList Row → Standing → Prop}
    (htenant : req.tenantId = tenantId)
    (hkept : ∀ service, (serveTenant service req).2.envelope = service.envelope)
    (hQ : ∀ answer service, service.envelope = m.envelope →
      (∀ document, answer = .ok document → (serveTenant service req).1 = .ok document) →
      Q answer ∅ m) :
    Follows schema (script slug tenantId settings)
      (ReadCommitted.Handler.request req : Handler _) ∅ m Q fun _ _ _ => True := by
  refine .request fun c answer up' hknown hwrites hserved => ?_
  subst htenant
  refine ⟨m, fun hknown => ?_, ?_⟩
  · refine hknown.request hknown.intact ?_
    have henvelope : (up' req.tenantId).envelope = m.envelope := by
      rw [← hknown.envelope]
      obtain ⟨hup, -⟩ | ⟨hup, -⟩ := served_cases hserved
      · rw [hup, hkept]
      · rw [hup]
    rw [henvelope]
  · refine hQ answer (c.upstream req.tenantId) hknown.envelope fun document hok => ?_
    obtain ⟨-, hdocument⟩ | ⟨-, hnone⟩ := served_cases hserved
    · exact hdocument document hok
    · exact absurd hok (hnone document)

variable {context url : String} {Q : Json → AList Row → Standing → Prop}

theorem follows_getEnvelope (hQ : Q m.envelope.toJson ∅ m) :
    Follows schema (script slug tenantId settings)
      (Routes.requestManagement context (.getEnvelope tenantId url)) ∅ m Q fun _ _ _ => True := by
  refine .bind (follows_request_kept rfl (fun _ => rfl) fun answer service hservice hanswer => ?_)
  refine .mapErr (.require (fun document hok => ?_) fun _ _ => trivial)
  obtain rfl := Except.ok.inj (hanswer document hok)
  rw [hservice]
  exact hQ

theorem follows_getPosture (hQ : ∀ document, Q document ∅ m) :
    Follows schema (script slug tenantId settings)
      (Routes.requestManagement context (.getPosture tenantId url)) ∅ m Q fun _ _ _ => True := by
  refine .bind (follows_request_kept rfl (fun _ => rfl) fun _ _ _ _ => ?_)
  exact .mapErr (.require (fun document _ => hQ document) fun _ _ => trivial)

theorem follows_postEnvelope {body : EnvelopeRequest}
    (hintact : ∀ envelope', m.envelope.replace body = some envelope' →
      Standing.Intact settings { m with envelope := envelope' })
    (hQ : ∀ document envelope', m.envelope.replace body = some envelope' →
      Q document ∅ { m with envelope := envelope' }) :
    Follows schema (script slug tenantId settings)
      (Routes.requestManagement context (.postEnvelope tenantId url body)) ∅ m Q
      fun _ _ _ => True := by
  refine follows_requestManagement fun c answer up' hknown hwrites hserved => ?_
  have hcases := served_cases hserved
  simp only [ManagementRequest.tenantId, serveTenant, hknown.envelope] at hcases
  cases hreplace : m.envelope.replace body with
  | none =>
    rw [hreplace] at hcases
    refine ⟨m, fun hknown => hknown.request hknown.intact ?_, fun document hok => ?_,
      fun _ => trivial⟩
    · have henvelope : (up' tenantId).envelope = m.envelope := by
        rw [← hknown.envelope]
        obtain ⟨hup, -⟩ | ⟨hup, -⟩ := hcases <;> rw [hup]
      rw [henvelope]
    · obtain ⟨-, hdocument⟩ | ⟨-, hnone⟩ := hcases
      · cases hdocument document hok
      · exact absurd hok (hnone document)
  | some envelope' =>
    rw [hreplace] at hcases
    obtain ⟨hup, -⟩ | ⟨rfl, hnone⟩ := hcases
    · refine ⟨{ m with envelope := envelope' }, fun hknown => ?_,
        fun document _ => hQ document envelope' hreplace, fun _ => trivial⟩
      refine hknown.request (hintact envelope' hreplace) ?_
      rw [hup]
    · refine ⟨m, fun hknown => hknown, fun document hok => absurd hok (hnone document),
        fun _ => trivial⟩

theorem follows_status {status : TenantStatus} {Q : TenantSummary → AList Row → Standing → Prop}
    (hQ : ∀ (found : TenantSummary) (row : TenantRow), row.status = status →
      Q found ∅ { m with tenant := some row }) :
    Follows schema (script slug tenantId settings) (setStatus cfg slug status) ∅ m Q
      fun _ _ _ => True := by
  refine follows_setStatus (ignores_script slug tenantId settings) buffers
    (fun _ hknown => hknown.named) fun c row _ hid _ hstatus hwrites => ?_
  exact ⟨_, fun hknown => hknown.commit_tenant hid hwrites, fun found => hQ found row hstatus⟩

variable {actor : String} {rawSlug : String}

theorem follows_park {reason : Option String} (hslug : Validation.slug rawSlug = .ok slug) :
    Follows schema (script slug tenantId settings) (Routes.parkTenant cfg rawSlug actor reason)
      ∅ m (fun _ _ _ => True) fun _ _ _ => True := by
  have hignores := ignores_script slug tenantId settings
  have hnamed (m : Standing) (c : Scene Row Upstream)
      (hknown : (script slug tenantId settings).known m c) : Named slug tenantId c.committed :=
    hknown.named
  refine .bind (.required hslug ?_)
  refine .bind (follows_findTenant (hignores.passes _) (hnamed m) (fun _ => trivial)
    fun c _ found hknown _ _ _ => ?_)
  have hintact : m.Intact settings := hknown.intact
  refine .bind (.ensure (fun _ => ?_) fun _ => trivial)
  refine .bind (.ensure (fun _ => ?_) fun _ => trivial)
  refine .bind (follows_target (hignores.passes _) (hnamed m) (fun _ => trivial)
    fun target url hid => ?_)
  subst hid
  refine .bind (follows_getEnvelope ?_)
  refine .bind (follows_getPosture fun posture => ?_)
  have hread : (Routes.parkSnapshot target.tenant.id actor ((reason.map Text.trim).filter (· ≠ ""))
      m.envelope.toJson posture).settings = m.envelope.settings := parkSnapshot_settings hintact.fits
  refine .bind (follows_saveParkSnapshot
    (P := fun row => row.settings = settings ∧ unconsumed row = true) hignores buffers
    (fun c now hknown => ?_) fun c row _ hrow hwrites => ?_)
  · have hsnapshot := hknown.snapshot
    simp only [Routes.parkSnapshot] at hsnapshot ⊢
    rw [hsnapshot]
    exact hintact.savedSnapshot hread rfl
  · refine ⟨{ m with snapshot := some row }, fun hknown => hknown.commit_snapshot hwrites
      (hintact.snapshot fun _ => hrow.symm), ?_⟩
    refine .bind (follows_postEnvelope
      (fun envelope' hreplace => hintact.parks hread hrow hreplace) fun _ envelope' _ => ?_)
    exact follows_status fun _ _ _ => trivial

variable {tenant : TenantRow}

section Finish

variable {Q : Unit → AList Row → Standing → Prop} (hintact : m.Intact settings)
  (hunparked : m.envelope.parked = false) (htenant : m.tenant = some tenant)
  (hrow : m.snapshot = some row) (hwaiting : unconsumed row = true)
  (hQ : ∀ m', Standing.Restored settings m' → Q () ∅ m')
include hintact hunparked htenant hrow hwaiting hQ

theorem follows_consume (hactive : tenant.status = .active) :
    Follows schema (script slug tenantId settings) (consumeParkSnapshot tenantId actor) ∅ m Q
      fun _ _ _ => True := by
  refine follows_consumeParkSnapshot (ignores_script slug tenantId settings) buffers trivial
    (fun c hknown hmiss => ?_) fun c row' _ hretired hwrites => ?_
  · -- the snapshot is there and waits
    have hfound := hmiss row (hknown.snapshot.trans hrow)
    rw [hwaiting] at hfound
    cases hfound
  · refine ⟨{ m with snapshot := some row' }, fun hknown => hknown.commit_snapshot hwrites
      (hintact.snapshot fun hparked => ?_), hQ _ ⟨hunparked, hintact.unparked hunparked, ?_, ?_⟩⟩
    · rw [hunparked] at hparked
      cases hparked
    · exact ⟨row', rfl, by simpa [unconsumed] using hretired⟩
    · exact ⟨tenant, htenant, hactive⟩

theorem follows_finishRestore :
    Follows schema (script slug tenantId settings)
      (Routes.finishRestore cfg slug tenantId tenant.status actor) ∅ m Q fun _ _ _ => True := by
  refine .bind (.whenever (fun _ => ?_) fun hactive => ?_)
  · refine .bind (follows_status fun _ tenant' hactive => .pure ?_)
    exact follows_consume hintact.tenant hunparked rfl hrow hwaiting hQ hactive
  · exact follows_consume hintact hunparked htenant hrow hwaiting hQ (not_not.mp hactive)

end Finish

theorem follows_restore (hfits : settings.Fits) {c c' : Scene Row Upstream}
    (hknown : Known slug tenantId settings m c)
    (hlookup : c.committed.lookup (.tenant tenantId) = some tenant)
    (hknown' : Known slug tenantId settings m c') (hwrites : c'.writes = ∅)
    (hloaded : (parkSnapshotRow c'.seen tenantId).filter unconsumed = some row) :
    Follows schema (script slug tenantId settings)
      (Routes.restoreTenantFromSnapshot cfg slug tenantId url row tenant.status actor) ∅ m
      (fun _ w m' => w = ∅ ∧ m'.Restored settings) fun _ _ _ => True := by
  have hintact := hknown.intact
  have htenant : m.tenant = some tenant := hknown.tenant.symm.trans hlookup
  obtain ⟨hrow, hwaiting⟩ := filter_eq_some_iff.mp hloaded
  rw [parkSnapshotRow, lookup_seen_of_empty hwrites] at hrow
  replace hrow : m.snapshot = some row := hknown'.snapshot.symm.trans hrow
  refine .bind (follows_getEnvelope ?_)
  refine .bind (.whenever (fun hparked => ?_) fun hunparked => ?_)
  · refine .bind (follows_postEnvelope
      (fun _ hreplace => (hintact.restores hfits hparked hrow hreplace).1)
      fun _ envelope' hreplace => ?_)
    obtain ⟨hintact', hunparked⟩ := hintact.restores hfits hparked hrow hreplace
    refine .bind (follows_request_kept rfl
      (fun service => serveTenant_postPosture service) fun _ _ _ _ => .pure ?_)
    exact follows_finishRestore hintact' hunparked htenant hrow hwaiting fun _ h => ⟨rfl, h⟩
  · exact follows_finishRestore hintact (by simpa using hunparked) htenant hrow hwaiting
      fun _ h => ⟨rfl, h⟩

def Promises (slug : String) (settings : Settings) (call : Call) (answer : Except ApiError Reply)
    (m : Standing) : Prop :=
  call.lifecycle slug = some .unpark → ∀ reply, answer = .ok reply → m.Restored settings

theorem follows_lifecycle {call : Call} (hfits : settings.Fits)
    (hcall : (call.lifecycle slug).isSome = true) :
    Prog.Follows schema (script slug tenantId settings) (handle cfg call).run ∅ m
      fun answer _ m' => Promises slug settings call answer m' := by
  have hignores := ignores_script slug tenantId settings
  have hnamed (m : Standing) (c : Scene Row Upstream) (hknown : Known slug tenantId settings m c) :
      Named slug tenantId c.committed := hknown.named
  have hother {h : Handler Reply} (hnot : call.lifecycle slug ≠ some .unpark)
      (hfollows : Follows schema (script slug tenantId settings) h ∅ m (fun _ _ _ => True)
        fun _ _ _ => True) :
      Prog.Follows schema (script slug tenantId settings) h.run ∅ m
        fun answer _ m' => Promises slug settings call answer m' :=
    follows_run (.mono (fun _ _ _ _ hunpark => absurd hunpark hnot)
      (fun _ _ _ _ hunpark => absurd hunpark hnot) hfollows)
  cases call with
  | park raw actor reason =>
    have hslug : Validation.slug raw = .ok slug := by simpa [Call.lifecycle] using hcall
    exact hother (by simp [Call.lifecycle]) (.map (follows_park hslug))
  | unpark raw actor =>
    have hslug : Validation.slug raw = .ok slug := by simpa [Call.lifecycle] using hcall
    refine follows_run (.map (.mono ?_ ?_ (follows_unparkTenant hignores hnamed
      (fun _ _ _ _ _ _ => follows_restore hfits) hslug)))
    · exact fun _ _ _ hrestored _ _ _ => hrestored
    · intro e _ _ _ _ reply hok
      cases hok
  | suspend raw | resume raw =>
    have hslug : Validation.slug raw = .ok slug := by simpa [Call.lifecycle] using hcall
    refine hother (by simp [Call.lifecycle]) (.map (.bind
      (.required hslug ?_)))
    exact follows_status fun _ _ _ => trivial
  | webhook provided req =>
    obtain ⟨hevent, hslug⟩ : BillingEvent.parse req.event = some .paymentSucceeded ∧
        Validation.slug req.tenantSlug = .ok slug := by simpa [Call.lifecycle] using hcall
    exact hother (by simp [Call.lifecycle]) (.map (follows_paymentWebhook hignores hnamed
      (fun _ _ _ _ _ _ => follows_restore hfits) trivial hevent hslug))
  | _ => simp [Call.lifecycle] at hcall

end CrashSafe

/-- Lifecycle requests for one tenant, handled one at a time. Every one of them may die at any operation
and lose the answers of the tenant's service. -/
def oneAtATime (slug : String) (s : State) : Action Key Call → Prop
  | .start _ call => (call.lifecycle slug).isSome = true ∧ ∀ sid tx, ¬ s.InFlight sid tx
  | .run _ _ | .crash _ | .tick _ => True

/-- The settings of the tenant's service when it was last not parked. -/
def lastUnparked (tenantId : Uuid) : List Step → State → Option Settings
  | [], t =>
    if (t.upstream tenantId).envelope.parked then none
    else some (t.upstream tenantId).envelope.settings
  | e :: earlier, t =>
    if (t.upstream tenantId).envelope.parked then lastUnparked tenantId earlier e.before
    else some (t.upstream tenantId).envelope.settings

namespace CrashSafe

structure Holds (slug : String) (tenantId : Uuid) (settings : Settings) (history : List Step)
    (s : State) (γ : Nat → Standing) : Prop where
  named : Named slug tenantId s.committed
  intact : (standing tenantId s.committed s.upstream).Intact settings
  last : lastUnparked tenantId history s = some settings
  alone : ∀ sid tx, s.InFlight sid tx → γ sid = standing tenantId s.committed s.upstream ∧
    ∀ other tx', s.InFlight other tx' → other = sid

variable {slug : String} {tenantId : Uuid} {settings : Settings} {cfg : Config} {history : List Step}
  {s t : State} {γ : Nat → Standing}

theorem Holds.known {sid : Nat} {tx : Txn Row} (hholds : Holds slug tenantId settings history s γ)
    (hflight : s.InFlight sid tx) : Known slug tenantId settings (γ sid) (.of sid s.toShared tx) := by
  rw [(hholds.alone sid tx hflight).1]
  exact ⟨hholds.named, hholds.intact, rfl⟩

theorem lastUnparked_cons {a : Action Key Call}
    (hlast : lastUnparked tenantId history s = some settings)
    (hintact : (standing tenantId t.committed t.upstream).Intact settings) :
    lastUnparked tenantId (⟨s, a, t⟩ :: history) t = some settings := by
  rw [lastUnparked]
  cases hparked : (t.upstream tenantId).envelope.parked with
  | true => exact hlast
  | false => exact congrArg some (hintact.unparked hparked)

theorem keeps_holds : (script slug tenantId settings).Keeps (server cfg) (oneAtATime slug)
    (fun s _ => standing tenantId s.committed s.upstream) (Holds slug tenantId settings) where
  start history s γ sid call t hholds hok _ hnew ht := by
    subst ht
    have hself {other : Nat} {tx : Txn Row} (hflight : (s.setSession sid
        ⟨call, some ((server cfg).handler call), .idle⟩ s.toShared).InFlight other tx) :
        other = sid := by
      obtain ⟨heq, -⟩ | ⟨-, hflight⟩ := hflight.cases
      · exact heq
      · exact absurd hflight (hok.2 other tx)
    refine ⟨hholds.named, hholds.intact, lastUnparked_cons hholds.last hholds.intact,
      fun other tx hflight => ⟨?_, fun other' tx' hflight' => ?_⟩⟩
    · rw [hself hflight, Function.update_self]
      rfl
    · rw [hself hflight, hself hflight']
  known history s γ sid call o next tx hholds hsession := hholds.known ⟨call, o, next, hsession⟩
  run history s γ sid choice call o next tx answer sh' tx' m t hholds _ _ hsession _ hmove ht := by
    have hflight : s.InFlight sid tx := ⟨call, o, next, hsession⟩
    have hknown : Known slug tenantId settings m (.of sid sh' tx') := hmove (hholds.known hflight)
    have hself {other : Nat} {tx₂ : Txn Row} (hother : t.InFlight other tx₂) : other = sid := by
      rw [ht] at hother
      obtain ⟨heq, -⟩ | ⟨-, hother⟩ := hother.cases
      · exact heq
      · exact (hholds.alone sid tx hflight).2 other tx₂ hother
    have hintact : (standing tenantId t.committed t.upstream).Intact settings := by
      rw [ht]
      exact hknown.stands ▸ hknown.intact
    refine ⟨?_, hintact, lastUnparked_cons hholds.last hintact,
      fun other tx₂ hother => ⟨?_, fun other' tx₃ hother' => ?_⟩⟩
    · rw [ht]
      exact hknown.named
    · rw [hself hother, Function.update_self, ht]
      exact hknown.stands.symm
    · rw [hself hother, hself hother']
  crash history s γ sid call p tx t hholds _ _ _ ht := by
    subst ht
    refine ⟨hholds.named, hholds.intact, lastUnparked_cons hholds.last hholds.intact,
      fun other tx₂ hother => ?_⟩
    obtain ⟨hstands, honly⟩ := hholds.alone other tx₂ hother.before_crash
    exact ⟨hstands, fun other' tx' hother' => honly other' tx' hother'.before_crash⟩
  tick history s γ elapsed t hholds _ _ ht := by
    subst ht
    exact ⟨hholds.named, hholds.intact, lastUnparked_cons hholds.last hholds.intact, hholds.alone⟩

theorem holds_of_run (hrest : s.AtRest) (hnamed : Named slug tenantId s.committed)
    (hunparked : (s.upstream tenantId).envelope.parked = false)
    (hfits : (s.upstream tenantId).envelope.settings.Fits)
    (hrun : Run (server cfg) (oneAtATime slug) s history t) :
    ∃ γ, Holds slug tenantId (s.upstream tenantId).envelope.settings history t γ ∧
      (script slug tenantId (s.upstream tenantId).envelope.settings).Followed (server cfg)
        (Promises slug (s.upstream tenantId).envelope.settings) t γ := by
  refine keeps_holds.run_induct (fun s sid call hok => follows_lifecycle hfits hok.1)
    ⟨fun _ => standing tenantId s.committed s.upstream, ⟨hnamed, ⟨hfits, fun _ => rfl, ?_⟩, ?_, ?_⟩,
      .of_atRest hrest⟩ hrun
  · intro hparked
    rw [show (standing tenantId s.committed s.upstream).envelope.parked = false from hunparked]
      at hparked
    cases hparked
  · simp [lastUnparked, hunparked]
  · rintro sid tx ⟨call, o, next, hsession⟩
    rw [hrest.1 sid] at hsession
    cases hsession

end CrashSafe

open CrashSafe in
/-- **Parking is crash safe.** Lifecycle requests of a tenant are handled one at a time; any may die
at any operation, and any call to the tenant's service may be applied with its answer lost. When an
unpark then succeeds, the service has the settings it had when it was last not parked; the snapshot
is consumed and the status is active. -/
theorem unpark_restores {cfg : Config} {slug rawSlug actor : String} {tenantId : Uuid} {s t t' u v : State}
    {history earlier : List Step} {sid : Nat} {choice : Choice Key} {reply : Reply}
    {settings : Settings} (hrest : s.AtRest) (hnamed : Named slug tenantId s.committed)
    (hunparked : (s.upstream tenantId).envelope.parked = false)
    (hfits : (s.upstream tenantId).envelope.settings.Fits)
    (hrun : Run (server cfg) (oneAtATime slug) s (⟨u, .run sid choice, v⟩ :: history) v)
    (hstarted : ⟨t, .start sid (.unpark rawSlug actor), t'⟩ :: earlier <:+ history)
    (hlast : lastUnparked tenantId earlier t = some settings)
    (hreturned : v.returned sid = some (.ok reply)) :
    (standing tenantId v.committed v.upstream).Restored settings := by
  -- the settings never change while the service is not parked
  obtain ⟨hbefore, hok, -⟩ := hrun.before (hstarted.trans (List.suffix_cons _ _))
  obtain ⟨_, hstarting, -⟩ := holds_of_run hrest hnamed hunparked hfits hbefore
  obtain rfl := some.inj (hstarting.last.symm.trans hlast)
  have hcall : (Call.unpark rawSlug actor).lifecycle slug = some .unpark := by
    have hslug : Validation.slug rawSlug = .ok slug := by simpa [oneAtATime, Call.lifecycle] using hok.1
    simp [Call.lifecycle, hslug]
  obtain ⟨call, tx, hdone⟩ := Sys.returned_eq_some.mp hreturned
  obtain ⟨σ, hσ, hunpark⟩ := call_of_started hrun (hstarted.trans (List.suffix_cons _ _))
  obtain rfl := some.inj (hdone.symm.trans hσ)
  obtain rfl : call = .unpark rawSlug actor := hunpark
  cases hrun with
  | cons hrun _ hstep =>
    obtain ⟨γ, hholds, hfollowed⟩ := holds_of_run hrest hnamed hunparked hfits hrun
    cases step_cases hstep with
    | run _ _ call' o next tx₀ answer sh' tx' hsession hexec ht =>
      have hknown := hholds.known ⟨call', o, next, hsession⟩
      obtain ⟨m, hmove, hnext⟩ := hfollowed.moves hknown hsession hexec
      have hstands := (hmove hknown).stands
      rw [ht, setSession_self] at hdone
      obtain ⟨rfl, hret, -⟩ : call' = .unpark rawSlug actor ∧ next answer = .ret (.ok reply) ∧
        tx' = tx := by simpa using hdone
      rw [hret] at hnext
      have hrestored := Prog.follows_ret.mp hnext hcall reply rfl
      rw [ht]
      exact hstands ▸ hrestored

def demoPark : Call := .park "acme" "operator" none

def demoUnpark : Call := .unpark "acme" "operator"

/-- A park dies once the envelope is parked; then an unpark runs. The state when it begins, with the
history so far, and the states around its last step. -/
def demoCrash : Option (State × List Step × State × State × List Step × State × State) := do
  let s ← step (server demoConfig) demoState (.start 0 demoPark)
  let (earlier, t) ← recordSchedule (server demoConfig) [⟨demoState, .start 0 demoPark, s⟩] s
    (List.replicate 12 (.run 0 ⟨[], .answered⟩) ++ [.crash 0])
  let t' ← step (server demoConfig) t (.start 1 demoUnpark)
  let (history, u) ← recordSchedule (server demoConfig) (⟨t, .start 1 demoUnpark, t'⟩ :: earlier) t'
    (List.replicate 14 (.run 1 ⟨[], .answered⟩))
  let v ← step (server demoConfig) u (.run 1 ⟨[], .answered⟩)
  some (s, earlier, t, t', history, u, v)

open CrashSafe in
theorem unpark_restores_after_crash :
    ∃ (history : List Step) (u v : State) (reply : Reply),
      Run (server demoConfig) (oneAtATime "acme") demoState
        (⟨u, .run 1 ⟨[], .answered⟩, v⟩ :: history) v ∧ v.returned 1 = some (.ok reply) ∧
      (standing 1 v.committed v.upstream).Restored ⟨true, false, 1, 1, 1, 1⟩ := by
  have hcrash : (demoCrash.map fun (_, earlier, t, _, _, _, v) =>
      ((t.sessions 0).map fun σ => σ.prog.isNone, lastUnparked 1 earlier t,
        (v.returned 1).map Except.isOk)) =
      some (some true, some ⟨true, false, 1, 1, 1, 1⟩, some true) := by
    decide
  obtain ⟨⟨s, earlier, t, t', history, u, v⟩, hdemo, hresult⟩ := map_eq_some_iff.mp hcrash
  obtain ⟨hdead, hrest⟩ := Prod.mk.inj hresult
  obtain ⟨hlast, hok⟩ := Prod.mk.inj hrest
  simp only [demoCrash, bind_eq_bind, bind_eq_some_iff, some.injEq,
    Prod.mk.injEq] at hdemo
  obtain ⟨s, hs, ⟨earlier, t⟩, hearlier, t', ht', ⟨history, u⟩, hhistory, v, hv, rfl, rfl, rfl, rfl,
    rfl, rfl, rfl⟩ := hdemo
  have hslug : Validation.slug "acme" = .ok "acme" := by decide
  have hatRest : demoState.AtRest := (demo_booted demoConfig).atRest
  -- nothing is in flight when either request begins
  have hfirst : Run (server demoConfig) (oneAtATime "acme") demoState
      [⟨demoState, .start 0 demoPark, s⟩] s := by
    refine .cons .nil ⟨by simp [demoPark, Call.lifecycle, hslug], ?_⟩ hs
    rintro sid tx ⟨call, o, next, hsession⟩
    cases hsession
  obtain ⟨hpark, -, hunstarted⟩ := run_of_recordSchedule_mem hfirst hearlier (by
    intro a hmem v
    obtain ⟨-, rfl⟩ | rfl : (12 ≠ 0 ∧ a = _) ∨ a = _ := by simpa using hmem
    · trivial
    · trivial)
  have hidle : ∀ sid tx, ¬ t.InFlight sid tx := by
    rintro sid tx ⟨call, o, next, hsession⟩
    by_cases hsid : sid = 0
    · subst hsid
      rw [hsession] at hdead
      cases hdead
    · have hnone : t.sessions sid = none := by
        apply hunstarted sid
        · exact unstarted_step hs (hatRest.1 sid) (by simpa using fun h => absurd h.symm hsid)
        · simp
      rw [hnone] at hsession
      cases hsession
  have hstarts : oneAtATime "acme" t (.start 1 demoUnpark) :=
    ⟨by simp [demoUnpark, Call.lifecycle, hslug], hidle⟩
  obtain ⟨hrun, hsuffix, -⟩ := run_of_recordSchedule_mem (.cons hpark hstarts ht') hhistory (by
    intro a hmem v
    obtain ⟨-, rfl⟩ := List.mem_replicate.mp hmem
    trivial)
  have hwhole : Run (server demoConfig) (oneAtATime "acme") demoState
      (⟨u, .run 1 ⟨[], .answered⟩, v⟩ :: history) v := .cons hrun trivial hv
  obtain ⟨reply, hreturned⟩ := ok_of_isOk hok
  exact ⟨history, u, v, reply, hwhole, hreturned, unpark_restores hatRest demo_named rfl
    (by constructor <;> decide) hwhole hsuffix hlast hreturned⟩

end ControlPlane
