import ControlPlane.Console
import ControlPlane.Proof.Lifecycle
import ControlPlane.ReadCommitted.Recall

/-!
# AREA entitlement

A settings request writes the flag in the tenant's service and then in the tenant's row, and two
requests may do so in opposite order. The flags agree once all have succeeded, if none commits
against the service after the others are through.
-/

namespace ControlPlane

open ReadCommitted ReadCommitted.Handler Store Function List

abbrev AreaState :=
  Sys Row Index ManagementRequest (Except ApiError Json) Upstream SettingsRequest
    (Except ApiError Json)

abbrev AreaStep :=
  Event Row Index ManagementRequest (Except ApiError Json) Upstream SettingsRequest
    (Except ApiError Json)

namespace Area

def rowFlag (db : AList Row) (tenantId : Uuid) : Option Bool :=
  (db.lookup (.tenant tenantId)).map (·.areaEnabled)

def serviceFlag (upstream : Upstream) (tenantId : Uuid) : Bool := (upstream tenantId).areaEnabled

/-- The flag a session has asked the service for since it last committed. -/
def note (asked : Option Bool) : Op Row ManagementRequest → Scene Row Upstream → Option Bool
  | .request (.patchAreaSettings _ _ enabled), _ => some enabled
  | .commit, _ => none
  | _, _ => asked

def outstanding (sid : Nat) (history : List AreaStep) : Option Bool := gathered note none sid history

inductive Phase where
  | looking
  | patched (enabled : Bool)
  | settled
  | failed (asked : Option Bool)
deriving DecidableEq

def Phase.asked : Phase → Option Bool
  | .patched enabled => some enabled
  | .failed asked => asked
  | _ => none

inductive Advance (tenantId : Uuid) (o : Op Row ManagementRequest) :
    Phase → Scene Row Upstream → Phase → Scene Row Upstream → Prop
  | stay {g c c'} : rowFlag c'.committed tenantId = rowFlag c.committed tenantId →
      c'.upstream = c.upstream → Advance tenantId o g c g c'
  | patch {c c' enabled url} : o = .request (.patchAreaSettings tenantId url enabled) →
      serviceFlag c'.upstream tenantId = enabled → Advance tenantId o .looking c (.patched enabled) c'
  | commit {c c' enabled} : o = .commit → rowFlag c'.committed tenantId = some enabled →
      c'.upstream = c.upstream → Advance tenantId o (.patched enabled) c .settled c'
  | fail {g c asked c'} : Advance tenantId o g c (.failed asked) c'

structure Move (slug : String) (tenantId : Uuid) (g : Phase) (o : Op Row ManagementRequest)
    (c : Scene Row Upstream) (g' : Phase) (c' : Scene Row Upstream) : Prop where
  asked : g'.asked = note g.asked o c
  named : Named slug tenantId c'.committed
  advance : Advance tenantId o g c g' c'

def script (slug : String) (tenantId : Uuid) : Script Row ManagementRequest Upstream Phase where
  known _ c := Named slug tenantId c.committed
  move := Move slug tenantId

section Follows

variable {cfg : Config} {slug : String} {tenantId : Uuid} {g : Phase} {enabled : Bool}
  {E : ApiError → AList Row → Phase → Prop}

theorem passes (g : Phase) : (script slug tenantId).PassesAt schema (fun _ => False) g := by
  intro o c answer c' hknown hspares hacts
  have hcommitted : c'.committed = c.committed := by
    refine hacts.committed ?_
    rintro rfl
    simp [Op.Spares] at hspares
  have hasked : g.asked = note g.asked o c := by
    cases o <;> first | rfl | simp [Op.Spares] at hspares
  have hupstream := (sameOn_of_acts hspares hacts (by simp)).1.upstream
  refine ⟨hasked, ?_, .stay (by rw [hcommitted]) hupstream⟩
  rw [hcommitted]
  exact hknown

/-- A patch the service answered leaves the request between its writes; any other one fails. -/
theorem follows_patch {url : String} {Q : Except ApiError Json → AList Row → Phase → Prop}
    (hok : ∀ document, Q (.ok document) ∅ (.patched enabled))
    (herror : ∀ e, Q (.error e) ∅ (.failed (some enabled))) :
    Follows schema (script slug tenantId)
      (Handler.request (.patchAreaSettings tenantId url enabled)) ∅ .looking Q E := by
  refine .request fun c answer upstream' hknown hwrites hserved => ?_
  obtain hanswered | ⟨hlost, -⟩ := hserved
  · obtain ⟨rfl, rfl⟩ := Prod.mk.inj hanswered
    have hflag : serviceFlag (serve (.patchAreaSettings tenantId url enabled) c.upstream).2 tenantId =
        enabled := by
      simp [serviceFlag, serve, serveTenant, ManagementRequest.tenantId]
    exact ⟨.patched enabled, ⟨rfl, hknown, .patch rfl hflag⟩, hok _⟩
  · refine ⟨.failed (some enabled), ⟨rfl, hknown, .fail⟩, ?_⟩
    subst hlost
    exact herror _

theorem follows_setAreaEnabled {Q : Bool → AList Row → Phase → Prop} (hQ : Q enabled ∅ .settled)
    (hE : ∀ e, E e ∅ (.patched enabled)) :
    Follows schema (script slug tenantId) (setAreaEnabled slug enabled) ∅ (.patched enabled)
      Q E := by
  have hdrop {e : ApiError} {w : AList Row} :
      (script slug tenantId).Drops (.patched enabled) w (E e ∅) :=
    fun c hknown _ => ⟨.patched enabled, ⟨rfl, hknown, .stay rfl rfl⟩, hE e⟩
  refine .bind (.inTransaction fun c hknown _ =>
    ⟨.patched enabled, ⟨rfl, hknown, .stay rfl rfl⟩, ?_⟩)
  refine .bind (.sqlNow (passes _) fun began _ _ => ?_)
  refine .bind (follows_updateTenant (passes _) (fun _ hknown => hknown) ?_ fun row hid hslug => ?_)
  · exact .okOr (fun _ hsome => by cases hsome) fun _ => hdrop
  refine .write_of_passes (passes _) (fun h => h) ?_ fun _ => hdrop
  refine .okOr (fun _ _ => ?_) fun hnone => by cases hnone
  intro d hknown hwrites
  refine ⟨.settled, ⟨rfl, Named.commit hknown ?_ hwrites, .commit rfl ?_ rfl⟩, .pure hQ⟩
  · exact hid
  · rw [rowFlag, lookup_committing_self hwrites, Option.map_some]

theorem follows_areaSettings {body : Json} :
    (areaSettings cfg slug body).run.Follows schema (script slug tenantId) ∅ .looking
      fun answer _ g => ∀ document, answer = .ok document → g = .settled := by
  refine follows_run (.bind (.okOr (fun enabled _ => ?_) fun _ => by simp))
  refine .bind (follows_target (passes _) (fun _ hknown => hknown) (by simp) ?_)
  rintro found url rfl
  refine .bind (follows_patch (fun document => ?_) fun e => ?_)
  · refine .bind (.require (fun _ _ => ?_) (by simp))
    refine .bind (.attempt (follows_setAreaEnabled ?_ fun e => ?_))
    · exact .pure fun _ _ => rfl
    · -- the compensation cannot make a success of the request
      refine .bind (.request fun c answer upstream' hknown _ _ => ?_)
      exact ⟨.failed (some found.tenant.areaEnabled), ⟨rfl, hknown, .fail⟩, .throw (by simp)⟩
  · exact .bind (.require (by simp) (by simp))

end Follows

/-- A request asks the service only while every request between its two writes asked for the same. -/
def InTurn (earlier : List AreaStep) (e : AreaStep) : Prop :=
  ∀ sid id url enabled c, e.does sid = some (.request (.patchAreaSettings id url enabled), c) →
    ∀ other asked, other ≠ sid → outstanding other earlier = some asked → asked = enabled

def onlyFor (slug : String) (_ : AreaState) (a : Action Key SettingsRequest) : Prop :=
  ∀ sid call, a = .start sid call → call.slug = slug

def Broken (s : AreaState) (γ : Nat → Phase) : Prop :=
  ∃ sid, (∃ asked, γ sid = .failed asked) ∨ ∃ call tx, s.sessions sid = some ⟨call, none, tx⟩

/-- A request between its writes has its flag at the service; once there is none, the flags agree. -/
structure Agreeing (tenantId : Uuid) (s : AreaState) (γ : Nat → Phase) : Prop where
  patched : ∀ sid enabled, γ sid = .patched enabled → serviceFlag s.upstream tenantId = enabled
  settled : (∃ sid enabled, γ sid = .patched enabled) ∨ (∀ sid, γ sid = .looking) ∨
    rowFlag s.committed tenantId = some (serviceFlag s.upstream tenantId)

structure Holds (slug : String) (tenantId : Uuid) (history : List AreaStep) (s : AreaState)
    (γ : Nat → Phase) : Prop where
  recalled : Recalled note none Phase.asked history s γ
  named : Named slug tenantId s.committed
  unstarted : ∀ sid, s.sessions sid = none → γ sid = .looking
  agreeing : (∀ earlier e, e :: earlier <:+ history → InTurn earlier e) →
    Broken s γ ∨ Agreeing tenantId s γ

variable {cfg : Config} {slug : String} {tenantId : Uuid} {history : List AreaStep} {s t : AreaState}
  {γ γ' : Nat → Phase} {o : Op Row ManagementRequest} {c c' : Scene Row Upstream} {g : Phase}

theorem Broken.mono (hbroken : Broken s γ)
    (hfailed : ∀ sid asked, γ sid = .failed asked → ∃ asked', γ' sid = .failed asked')
    (hdead : ∀ sid call tx, s.sessions sid = some ⟨call, none, tx⟩ →
      ∃ call tx, t.sessions sid = some ⟨call, none, tx⟩) : Broken t γ' := by
  obtain ⟨sid, ⟨asked, hsid⟩ | ⟨call, tx, hsid⟩⟩ := hbroken
  · exact ⟨sid, .inl (hfailed sid asked hsid)⟩
  · exact ⟨sid, .inr (hdead sid call tx hsid)⟩

theorem Advance.failed {g' : Phase} {asked : Option Bool} (hadvance : Advance tenantId o g c g' c')
    (hg : g = .failed asked) : ∃ asked', g' = .failed asked' := by
  subst hg
  cases hadvance with
  | stay => exact ⟨asked, rfl⟩
  | fail => exact ⟨_, rfl⟩

theorem Agreeing.run {sid : Nat} (hagreeing : Agreeing tenantId s γ)
    (hadvance : Advance tenantId o (γ sid) c g c')
    (hc : c.committed = s.committed ∧ c.upstream = s.upstream)
    (hc' : c'.committed = t.committed ∧ c'.upstream = t.upstream)
    (hturn : ∀ id url enabled, o = .request (.patchAreaSettings id url enabled) →
      ∀ other asked, other ≠ sid → γ other = .patched asked → asked = enabled) :
    (∃ asked, g = .failed asked) ∨ Agreeing tenantId t (update γ sid g) := by
  generalize hg : γ sid = old at hadvance
  cases hadvance with
  | stay hrow hupstream =>
    right
    rw [← hg, update_eq_self]
    rw [hc.1, hc'.1] at hrow
    rw [hc.2, hc'.2] at hupstream
    refine ⟨?_, ?_⟩
    · rw [hupstream]
      exact hagreeing.patched
    · rw [hupstream, hrow]
      exact hagreeing.settled
  | @patch _ _ enabled url ho hflag =>
    right
    rw [hc'.2] at hflag
    refine ⟨fun other asked hother => ?_, .inl ⟨sid, enabled, update_self ..⟩⟩
    by_cases heq : other = sid
    · rw [heq, update_self, Phase.patched.injEq] at hother
      rw [hflag, hother]
    · rw [update_of_ne heq] at hother
      rw [hflag, hturn tenantId url enabled ho other asked heq hother]
  | @commit _ _ enabled _ hrow hupstream =>
    right
    have hflag := hagreeing.patched sid enabled hg
    rw [hc.2, hc'.2] at hupstream
    rw [hc'.1] at hrow
    rw [← hupstream] at hflag
    refine ⟨fun other asked hother => ?_, .inr (.inr (by rw [hrow, hflag]))⟩
    by_cases heq : other = sid
    · simp [heq] at hother
    · rw [update_of_ne heq] at hother
      rw [hupstream]
      exact hagreeing.patched other asked hother
  | fail => exact .inl ⟨_, rfl⟩

theorem keeps_holds : (script slug tenantId).Keeps (areaServer cfg) (onlyFor slug)
    (fun _ _ => .looking) (Holds slug tenantId) where
  start history s γ sid call t hI _ _ hnew ht := by
    have hsame : update γ sid .looking = γ := by
      rw [← hI.unstarted sid hnew, update_eq_self]
    refine ⟨hI.recalled.start hnew ht rfl, ht ▸ hI.named, ?_, fun hall => ?_⟩
    · rw [hsame]
      intro other hnone
      subst ht
      exact hI.unstarted other (setSession_eq_none.mp hnone).2
    · rw [hsame]
      obtain hbroken | hagreeing := hI.agreeing fun earlier e hsuffix =>
        hall earlier e (hsuffix.trans (suffix_cons _ _))
      · refine .inl (hbroken.mono (fun other asked h => ⟨asked, h⟩) fun other call' tx hdead => ?_)
        subst ht
        have hne : other ≠ sid := by
          rintro rfl
          simp [hnew] at hdead
        exact ⟨call', tx, by rw [setSession_of_ne hne, hdead]⟩
      · subst ht
        exact .inr ⟨hagreeing.patched, hagreeing.settled⟩
  known _ _ _ _ _ _ _ _ hI _ := hI.named
  run history s γ sid choice call o next tx answer sh' tx' g t hI _ _ hsession _ hmove ht := by
    have hdead (other : Nat) (call' : SettingsRequest) (tx'' : Txn Row)
        (hother : s.sessions other = some ⟨call', none, tx''⟩) :
        ∃ call tx, t.sessions other = some ⟨call, none, tx⟩ := by
      subst ht
      have hne : other ≠ sid := by
        rintro rfl
        simp [hsession] at hother
      exact ⟨call', tx'', by rw [setSession_of_ne hne, hother]⟩
    refine ⟨hI.recalled.run hsession ht hmove.asked, ht ▸ hmove.named, ?_, fun hall => ?_⟩
    · intro other hnone
      subst ht
      obtain ⟨hne, hnone⟩ := setSession_eq_none.mp hnone
      rw [update_of_ne hne, hI.unstarted other hnone]
    obtain hbroken | hagreeing := hI.agreeing fun earlier e hsuffix =>
      hall earlier e (hsuffix.trans (suffix_cons _ _))
    · refine .inl (hbroken.mono (fun other asked hother => ?_) hdead)
      by_cases heq : other = sid
      · subst heq
        rw [update_self]
        exact hmove.advance.failed hother
      · exact ⟨asked, by rw [update_of_ne heq, hother]⟩
    · obtain ⟨asked, hfailed⟩ | hnext := hagreeing.run hmove.advance ⟨rfl, rfl⟩
        (show _ = t.committed ∧ _ = t.upstream by subst ht; exact ⟨rfl, rfl⟩) (by
          rintro id url enabled rfl other asked hne hother
          refine hall history _ suffix_rfl sid id url enabled _ (Event.does_run hsession) other
            asked hne ?_
          rw [outstanding, ← hI.recalled.view_eq other, hother]
          rfl)
      · exact .inl ⟨sid, .inl ⟨asked, by rw [update_self, hfailed]⟩⟩
      · exact .inr hnext
  crash history s γ sid call p tx t hI _ _ hsession ht := by
    refine ⟨hI.recalled.crash ht, ht ▸ hI.named, ?_, fun _ => .inl ⟨sid, .inr ?_⟩⟩
    · intro other hnone
      subst ht
      exact hI.unstarted other (setSession_eq_none.mp hnone).2
    · subst ht
      exact ⟨call, _, setSession_self ..⟩
  tick history s γ elapsed t hI _ _ ht := by
    subst ht
    refine ⟨hI.recalled.tick rfl, hI.named, hI.unstarted, fun hall => ?_⟩
    obtain hbroken | hagreeing := hI.agreeing fun earlier e hsuffix =>
      hall earlier e (hsuffix.trans (suffix_cons _ _))
    · exact .inl (hbroken.mono (fun _ asked h => ⟨asked, h⟩) fun _ call tx h => ⟨call, tx, h⟩)
    · exact .inr ⟨hagreeing.patched, hagreeing.settled⟩

def AllSucceeded (t : AreaState) : Prop :=
  (∃ sid, t.sessions sid ≠ none) ∧
    ∀ sid, t.sessions sid ≠ none → ∃ document, t.returned sid = some (.ok document)

/-- Requests that take turns leave the service and the row with the same flag. -/
theorem area_flags_agree (hrest : s.AtRest) (hnamed : Named slug tenantId s.committed)
    (hrun : Run (areaServer cfg) (onlyFor slug) s history t)
    (hturn : ∀ earlier e, e :: earlier <:+ history → InTurn earlier e) (hall : AllSucceeded t) :
    rowFlag t.committed tenantId = some (serviceFlag t.upstream tenantId) := by
  have hinit : Holds slug tenantId [] s fun _ => .looking :=
    ⟨.nil fun _ => rfl, hnamed, fun _ _ => rfl, fun _ => .inr ⟨by simp, .inr (.inl fun _ => rfl)⟩⟩
  have hfollowed : (script slug tenantId).Followed (areaServer cfg)
      (fun _ answer g => ∀ document, answer = .ok document → g = .settled) s fun _ => .looking :=
    .of_atRest hrest
  obtain ⟨γ, hholds, hfollowed⟩ := keeps_holds.run_induct
    (fun _ _ call hok => by
      obtain rfl := hok _ call rfl
      exact follows_areaSettings) ⟨_, hinit, hfollowed⟩ hrun
  have hsettled (sid : Nat) (hstarted : t.sessions sid ≠ none) :
      γ sid = .settled ∧ ∃ call p tx, t.sessions sid = some ⟨call, some p, tx⟩ := by
    obtain ⟨document, hreturned⟩ := hall.2 sid hstarted
    obtain ⟨call, tx, hsession⟩ := Sys.returned_eq_some.mp hreturned
    have hpromise := Prog.follows_ret.mp (hfollowed sid call _ tx hsession)
    exact ⟨hpromise document rfl, call, _, tx, hsession⟩
  have hphase (sid : Nat) : γ sid = .looking ∨ γ sid = .settled := by
    by_cases hstarted : t.sessions sid = none
    · exact .inl (hholds.unstarted sid hstarted)
    · exact .inr (hsettled sid hstarted).1
  obtain ⟨sid, ⟨asked, hfailed⟩ | ⟨call, tx, hdead⟩⟩ | hagreeing := hholds.agreeing hturn
  · obtain h | h := hphase sid <;> simp [h] at hfailed
  · obtain ⟨-, call', p, tx', hsession⟩ := hsettled sid (by simp [hdead])
    simp [hdead] at hsession
  · obtain ⟨sid, enabled, hpatched⟩ | hlooking | hagree := hagreeing.settled
    · obtain h | h := hphase sid <;> simp [h] at hpatched
    · obtain ⟨sid, hstarted⟩ := hall.1
      have := (hsettled sid hstarted).1
      simp [hlooking sid] at this
    · exact hagree

def deployed : AreaState where
  toShared := demoState.toShared
  sessions _ := none

def askFor (enabled : Bool) : SettingsRequest where
  slug := "acme"
  body := .obj [("enabled", .bool enabled)]

def resume (sid steps : Nat) : List (Action Key SettingsRequest) :=
  List.replicate steps (.run sid ⟨[], .answered⟩)

/-- The service is asked for `true` and then `false`, the row is written `false` and then `true`. -/
def crossing : List (Action Key SettingsRequest) :=
  alone 0 (askFor true) 4 ++ alone 1 (askFor false) 11 ++ resume 0 7

def takingTurns : List (Action Key SettingsRequest) :=
  alone 0 (askFor true) 11 ++ alone 1 (askFor false) 11

def succeeded (t : AreaState) (sid : Nat) : Bool :=
  match t.returned sid with
  | some (.ok _) => true
  | _ => false

theorem allSucceeded_of_two (hfirst : succeeded t 0 = true) (hsecond : succeeded t 1 = true)
    (hothers : ∀ sid, sid ≠ 0 → sid ≠ 1 → t.sessions sid = none) : AllSucceeded t := by
  have hreturned (sid : Nat) (hsid : succeeded t sid = true) :
      ∃ document, t.returned sid = some (.ok document) := by
    unfold succeeded at hsid
    split at hsid
    · exact ⟨_, ‹_›⟩
    · simp at hsid
  constructor
  · obtain ⟨document, hdocument⟩ := hreturned 0 hfirst
    obtain ⟨call, tx, hsession⟩ := Sys.returned_eq_some.mp hdocument
    exact ⟨0, by simp [hsession]⟩
  · intro sid hstarted
    by_cases hzero : sid = 0
    · exact hzero ▸ hreturned 0 hfirst
    by_cases hone : sid = 1
    · exact hone ▸ hreturned 1 hsecond
    · exact absurd (hothers sid hzero hone) hstarted

theorem run_of_two {actions : List (Action Key SettingsRequest)}
    (hschedule : recordSchedule (areaServer demoConfig) [] deployed actions = some (history, t))
    (hstarts : ∀ sid call, .start sid call ∈ actions → call.slug = "acme" ∧ (sid = 0 ∨ sid = 1)) :
    Run (areaServer demoConfig) (onlyFor "acme") deployed history t ∧
      ∀ sid, sid ≠ 0 → sid ≠ 1 → t.sessions sid = none := by
  obtain ⟨hrun, -, hunstarted⟩ := run_of_recordSchedule_mem
    (Run.nil (V := areaServer demoConfig) (s := deployed)) hschedule
    (fun a ha _ => show onlyFor "acme" deployed a from
      fun sid call heq => (hstarts sid call (heq ▸ ha)).1)
  refine ⟨hrun, fun sid hzero hone => hunstarted sid rfl fun call hmem => ?_⟩
  obtain h | h := (hstarts sid call hmem).2
  · exact hzero h
  · exact hone h

def turnCheck (history : List AreaStep) : Bool :=
  history.tails.all fun
    | [] => true
    | e :: earlier =>
      match e.action with
      | .run sid _ =>
        match e.does sid with
        | some (.request (.patchAreaSettings _ _ enabled), _) =>
          earlier.all fun before =>
            match before.action with
            | .run other _ =>
              other = sid || (outstanding other earlier).all (· = enabled)
            | _ => true
        | _ => true
      | _ => true

theorem inTurn_of_turnCheck (hcheck : turnCheck history = true) {earlier : List AreaStep}
    {e : AreaStep} (hsuffix : e :: earlier <:+ history) : InTurn earlier e := by
  intro sid id url enabled c hdoes other asked hne hasked
  have htail := all_eq_true.mp hcheck _ ((mem_tails _ _).mpr hsuffix)
  by_cases hacted : ∃ before ∈ earlier, ∃ choice, before.action = .run other choice
  · obtain ⟨before, hmem, choice, haction⟩ := hacted
    obtain ⟨choice', haction'⟩ := Event.action_of_does hdoes
    simp only [haction', hdoes] at htail
    have hbefore := all_eq_true.mp htail before hmem
    simpa [haction, hne, hasked] using hbefore
  · have hidle : outstanding other earlier = none :=
      gathered_of_idle fun before hmem choice h => hacted ⟨before, hmem, choice, h⟩
    simp [hidle] at hasked

theorem area_flags_agree_taking_turns :
    ∃ history t, Run (areaServer demoConfig) (onlyFor "acme") deployed history t ∧
      AllSucceeded t ∧ rowFlag t.committed 1 = some (serviceFlag t.upstream 1) := by
  have hrecord : ((recordSchedule (areaServer demoConfig) [] deployed takingTurns).any fun p =>
      turnCheck p.1 && succeeded p.2 0 && succeeded p.2 1) = true := by decide
  obtain ⟨⟨history, t⟩, hschedule, hcheck⟩ := (Option.any_eq_true _ _).mp hrecord
  simp only [Bool.and_eq_true] at hcheck
  obtain ⟨hrun, hothers⟩ := run_of_two hschedule (by
    simp only [takingTurns, alone, mem_append, mem_cons, mem_replicate]
    rintro sid call ((h | ⟨-, h⟩) | (h | ⟨-, h⟩)) <;> cases h <;> simp [askFor])
  have hall := allSucceeded_of_two hcheck.1.2 hcheck.2 hothers
  exact ⟨history, t, hrun, hall, area_flags_agree ⟨fun _ => rfl, fun _ => rfl, fun _ => rfl⟩ demo_named
    hrun (fun _ _ => inTurn_of_turnCheck hcheck.1.1) hall⟩

/-- Two requests that write the two places in opposite order both succeed. -/
theorem area_flags_differ_when_crossing :
    deployed.AtRest ∧ Named "acme" 1 deployed.committed ∧
      ∃ history t, Run (areaServer demoConfig) (onlyFor "acme") deployed history t ∧
        AllSucceeded t ∧ rowFlag t.committed 1 = some true ∧ serviceFlag t.upstream 1 = false := by
  have hrecord : ((recordSchedule (areaServer demoConfig) [] deployed crossing).any fun p =>
      succeeded p.2 0 && succeeded p.2 1 && rowFlag p.2.committed 1 = some true &&
        serviceFlag p.2.upstream 1 = false) = true := by decide
  obtain ⟨⟨history, t⟩, hschedule, hcheck⟩ := (Option.any_eq_true _ _).mp hrecord
  simp only [Bool.and_eq_true, decide_eq_true_eq] at hcheck
  obtain ⟨⟨⟨hfirst, hsecond⟩, hrow⟩, hservice⟩ := hcheck
  obtain ⟨hrun, hothers⟩ := run_of_two hschedule (by
    simp only [crossing, resume, alone, mem_append, mem_cons, mem_replicate]
    rintro sid call (((h | ⟨-, h⟩) | (h | ⟨-, h⟩)) | ⟨-, h⟩) <;> cases h <;> simp [askFor])
  exact ⟨⟨fun _ => rfl, fun _ => rfl, fun _ => rfl⟩, demo_named, history, t, hrun,
    allSucceeded_of_two hfirst hsecond hothers, hrow, hservice⟩

end Area

end ControlPlane
