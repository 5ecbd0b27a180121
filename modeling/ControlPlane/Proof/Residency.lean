import ControlPlane.Console
import ControlPlane.Proof.Scripts
import ControlPlane.ReadCommitted.Recall

/-!
# Data residency

An update compares the region with the one it looked up before its transaction. A first
classification keeps it if no other region is committed in the meantime.
-/

namespace ControlPlane

open ReadCommitted ReadCommitted.Handler Store Function Option List

abbrev ProfileState :=
  Sys Row Index ManagementRequest (Except ApiError Json) Upstream ProfileUpdate
    (Except ApiError TenantSummary)

abbrev ProfileStep :=
  Event Row Index ManagementRequest (Except ApiError Json) Upstream ProfileUpdate
    (Except ApiError TenantSummary)

namespace Residency

def region (row : TenantRow) : Option String :=
  (row.regionalProfile.bind RegionalProfile.ofJson).map (·.dataRegion)

def regionOf (db : AList Row) (tenantId : Uuid) : Option String :=
  (db.lookup (.tenant tenantId)).bind region

theorem ofJson_toJson (profile : RegionalProfile) :
    RegionalProfile.ofJson profile.toJson = some profile := rfl

theorem region_setProfile (profile : RegionalProfile) (now : Instant) (row : TenantRow) :
    region (setProfile profile now row) = some profile.dataRegion := by
  simp only [region, setProfile, bind_some, ofJson_toJson, map_some]

def KeyedTenants (db : AList Row) : Prop :=
  ∀ (id : Uuid) (row : TenantRow), db.lookup (.tenant id) = some row → row.id = id

variable {db : AList Row}

theorem KeyedTenants.found {slug : String} {tenant : TenantRow} (hkeyed : KeyedTenants db)
    (htenant : tenantRow db slug = some tenant) : db.lookup (.tenant tenant.id) = some tenant := by
  obtain ⟨⟨id, hrow⟩, -⟩ := tenantRow_eq_some htenant
  rw [hkeyed id tenant hrow]
  exact hrow

/-- A new version of a tenant's row keeps the region the tenant was seen with, if there was one. -/
structure Judged (seen : AList Row) (id : Uuid) (row : TenantRow) : Prop where
  id_eq : row.id = id
  region_eq : ∃ r, region row = some r ∧ ∀ r', regionOf seen id = some r' → r' = r

structure Move (g : Option (AList Row)) (o : Op Row ManagementRequest) (c : Scene Row Upstream)
    (g' : Option (AList Row)) (c' : Scene Row Upstream) : Prop where
  recalls : g' = recollect g o c
  clean : g' = none → c'.writes = ∅
  commits : o = .commit → ∃ seen, g = some seen ∧ ∀ (id : Uuid) (row : TenantRow),
    c.writes.lookup (.tenant id) = some row → Judged seen id row

def script : Script Row ManagementRequest Upstream (Option (AList Row)) where
  known g c := KeyedTenants c.committed ∧ (g = none → c.writes = ∅)
  move := Move

theorem passes (seen : AList Row) : script.PassesAt schema (fun _ => False) (some seen) := by
  intro o c answer c' _ hspares _
  refine ⟨(recall_some seen o c).symm, by simp, ?_⟩
  rintro rfl
  exact absurd hspares (by simp [Op.Spares])

section Follows

variable {cfg : Config}

theorem follows_look {slug : String} {Q : TenantSummary → AList Row → Option (AList Row) → Prop}
    (hfound : ∀ seen tenant now, KeyedTenants seen → tenantRow seen slug = some tenant →
      Q (summary cfg seen now tenant) ∅ (some seen)) :
    Follows schema script (tenantBySlug cfg slug) ∅ none Q fun _ _ _ => True := by
  refine .bind (.ask ?_)
  rintro c _ c' hknown hwrites ⟨rfl, rfl⟩
  have hkeyed : KeyedTenants c'.seen := by
    intro id row hrow
    rw [Scene.lookup_seen, hwrites, AList.lookup_empty, none_or] at hrow
    exact hknown.1 id row hrow
  refine ⟨some c'.seen, ⟨rfl, by simp, by simp⟩, ?_⟩
  rw [hwrites]
  refine .bind (.okOr (fun tenant htenant => ?_) fun _ => trivial)
  refine .bind (.utcNow (passes _) fun now => ?_)
  exact .pure (hfound _ tenant now hkeyed htenant)

theorem follows_write {seen : AList Row} {tenant : TenantRow} {profile : RegionalProfile}
    {Q : Option TenantRow → AList Row → Option (AList Row) → Prop}
    (hjudged : ∀ r, regionOf seen tenant.id = some r → r = profile.dataRegion)
    (hQ : ∀ answer, Q answer ∅ (some seen)) :
    Follows schema script
      (Handler.inTransaction do
        let now ← Handler.sqlNow
        Handler.updateRow (Key.tenant tenant.id) (fun _ => true) fun _ row =>
          setProfile profile now row) ∅ (some seen) Q fun (_ : ApiError) _ _ => True := by
  refine .inTransaction fun c _ _ => ⟨some seen, ⟨rfl, by simp, by simp⟩, ?_⟩
  refine .bind (.sqlNow (passes _) fun began _ _ => ?_)
  refine .updateRow (passes _) ?_ ?_
  · intro _ _ _ _ c _ hwrites
    refine ⟨some seen, ⟨rfl, by simp, fun _ => ⟨seen, rfl, fun id row hrow => ?_⟩⟩, hQ none⟩
    simp [hwrites] at hrow
  · intro c' _ row hknown hwrites hrow _
    refine .write_of_passes (passes _) (fun h => h) ?_ fun _ c _ _ =>
      ⟨some seen, ⟨rfl, by simp, by simp⟩, trivial⟩
    intro c'' _ hwrites'
    refine ⟨some seen, ⟨rfl, by simp, fun _ => ⟨seen, rfl, fun id new hnew => ?_⟩⟩, hQ _⟩
    rw [Scene.lookup_seen, hwrites, AList.lookup_empty, none_or] at hrow
    by_cases heq : id = tenant.id
    · subst heq
      rw [hwrites', AList.lookup_insert, some.injEq] at hnew
      subst hnew
      exact ⟨hknown.1 tenant.id row hrow, profile.dataRegion, region_setProfile .., hjudged⟩
    · rw [hwrites', AList.lookup_insert_ne (by simpa using heq)] at hnew
      simp at hnew

theorem follows_update (call : ProfileUpdate) :
    ((profileServer cfg).handler call).Follows schema script ∅ none fun _ _ _ => True := by
  refine follows_run (.bind (follows_look ?_))
  intro seen tenant now hkeyed htenant
  have hrow := hkeyed.found htenant
  refine .bind (.mono (Q := fun _ w g => w = ∅ ∧ g = some seen ∧
      ∀ r, regionOf seen tenant.id = some r → r = call.profile.dataRegion)
    ?_ (fun _ _ _ h => h) (.forSome ?_ ?_))
  · rintro _ w g ⟨rfl, rfl, hjudged⟩
    refine .bind (follows_write hjudged fun _ => ?_)
    exact .of_stays (passes _) (spares_tenantBySlug _)
      (fun _ _ _ => trivial) fun _ _ _ => trivial
  · intro stored hstored
    refine .bind (.okOr (fun current hcurrent => ?_) fun _ => trivial)
    refine .ensure (fun hsame => ⟨rfl, rfl, fun r hr => ?_⟩) fun _ => trivial
    have hstored : tenant.regionalProfile = some stored := hstored
    simp only [regionOf, hrow, bind_some, region, hstored, hcurrent, map_some, some.injEq] at hr
    rw [← hr, hsame]
  · intro hnone
    have hnone : tenant.regionalProfile = none := hnone
    refine ⟨rfl, rfl, fun r hr => ?_⟩
    simp [regionOf, hrow, region, hnone] at hr

end Follows

/-- A first classification, which saw the tenant in no region, is committed while the tenant has
none, or the same one. -/
def Uncontested (tenantId : Uuid) (earlier : List ProfileStep) (e : ProfileStep) : Prop :=
  ∀ sid choice call next tx seen (row : TenantRow), e.action = .run sid choice →
    e.before.sessions sid = some ⟨call, some (.op .commit next), tx⟩ →
    firstSeen sid earlier = some seen → tx.writes.lookup (.tenant tenantId) = some row →
    regionOf seen tenantId = none → regionOf e.before.committed tenantId ≠ none →
    regionOf e.before.committed tenantId = region row

def Kept (tenantId : Uuid) (history : List ProfileStep) (t : ProfileState) : Prop :=
  ∀ e ∈ history, ∀ r, regionOf e.before.committed tenantId = some r →
    regionOf t.committed tenantId = some r

structure Holds (tenantId : Uuid) (history : List ProfileStep) (s : ProfileState)
    (γ : Nat → Option (AList Row)) : Prop where
  recalled : Recalled recollect none id history s γ
  keyed : KeyedTenants s.committed
  clean : ∀ sid call p tx, s.sessions sid = some ⟨call, some p, tx⟩ → γ sid = none → tx.writes = ∅
  kept : (∀ earlier e, e :: earlier <:+ history → Uncontested tenantId earlier e) →
    Kept tenantId history s ∧ ∀ sid seen r, γ sid = some seen → regionOf seen tenantId = some r →
      regionOf s.committed tenantId = some r

variable {cfg : Config} {tenantId : Uuid} {history : List ProfileStep} {s t : ProfileState}
  {γ : Nat → Option (AList Row)} {a : Action Key ProfileUpdate} {seen writes : AList Row}
  {earlier : List ProfileStep} {e : ProfileStep}

theorem Kept.cons (hkept : Kept tenantId history s)
    (hnow : ∀ r, regionOf s.committed tenantId = some r → regionOf t.committed tenantId = some r) :
    Kept tenantId (⟨s, a, t⟩ :: history) t := by
  intro e he r hr
  obtain rfl | he := mem_cons.mp he
  · exact hnow r hr
  · exact hnow r (hkept e he r hr)

theorem Holds.next {γ' : Nat → Option (AList Row)} (hholds : Holds tenantId history s γ)
    (hrecalled : Recalled recollect none id (⟨s, a, t⟩ :: history) t γ')
    (hkeyed : KeyedTenants t.committed)
    (hclean : ∀ sid call p tx, t.sessions sid = some ⟨call, some p, tx⟩ → γ' sid = none →
      tx.writes = ∅)
    (hnow : Uncontested tenantId history ⟨s, a, t⟩ →
      (∀ sid seen r, γ sid = some seen → regionOf seen tenantId = some r →
        regionOf s.committed tenantId = some r) →
      ∀ r, regionOf s.committed tenantId = some r → regionOf t.committed tenantId = some r)
    (hnew : ∀ sid seen, γ' sid = some seen → γ sid = some seen ∨
      ∀ key, seen.lookup key = s.committed.lookup key) :
    Holds tenantId (⟨s, a, t⟩ :: history) t γ' := by
  refine ⟨hrecalled, hkeyed, hclean, fun hall => ?_⟩
  obtain ⟨hkept, hseen⟩ := hholds.kept fun earlier e hsuffix =>
    hall earlier e (hsuffix.trans (suffix_cons _ _))
  have hnow := hnow (hall history _ suffix_rfl) hseen
  refine ⟨hkept.cons hnow, fun sid seen r hsid hr => hnow r ?_⟩
  obtain hold | hsame := hnew sid seen hsid
  · exact hseen sid seen r hold hr
  · rwa [regionOf, hsame] at hr

theorem recalled_of_move {g g' : Option (AList Row)} {o : Op Row ManagementRequest}
    {c c' : Scene Row Upstream} (hmove : Move g o c g' c') (hclean : g = none → c.writes = ∅)
    (hseen : g' = some seen) : g = some seen ∨ ∀ key, seen.lookup key = c.committed.lookup key := by
  have hrecalls := hmove.recalls
  cases g with
  | some old =>
    rw [recall_some] at hrecalls
    exact .inl (hrecalls ▸ hseen)
  | none =>
    rw [hseen] at hrecalls
    cases o with
    | snapshot =>
      obtain rfl : seen = c.seen := by simpa [recollect] using hrecalls
      refine .inr fun key => ?_
      rw [Scene.lookup_seen, hclean rfl, AList.lookup_empty, none_or]
    | _ => simp [recollect] at hrecalls

theorem keyed_of_commit (hkeyed : KeyedTenants db)
    (hjudged : ∀ (id : Uuid) (row : TenantRow), writes.lookup (.tenant id) = some row →
      Judged seen id row) : KeyedTenants (writes ∪ db) := by
  intro id row hrow
  rw [lookup_union, or_eq_some_iff] at hrow
  obtain hwritten | ⟨-, hold⟩ := hrow
  · exact (hjudged id row hwritten).id_eq
  · exact hkeyed id row hold

theorem regionOf_commit {r : String}
    (hjudged : ∀ (id : Uuid) (row : TenantRow), writes.lookup (.tenant id) = some row →
      Judged seen id row)
    (hseen : ∀ r, regionOf seen tenantId = some r → regionOf db tenantId = some r)
    (hfirst : ∀ row : TenantRow, writes.lookup (.tenant tenantId) = some row →
      regionOf seen tenantId = none → regionOf db tenantId ≠ none →
      regionOf db tenantId = region row) (hr : regionOf db tenantId = some r) :
    regionOf (writes ∪ db) tenantId = some r := by
  rw [regionOf, lookup_union]
  cases hwritten : writes.lookup (.tenant tenantId) with
  | none => exact hr
  | some row =>
    obtain ⟨-, r', hregion, hsame⟩ := hjudged tenantId row hwritten
    change region row = some r
    cases hlooked : regionOf seen tenantId with
    | none => rw [← hfirst row hwritten hlooked (by simp [hr]), hr]
    | some old =>
      have hold := hseen old hlooked
      rw [hr, some.injEq] at hold
      rw [hregion, hold, hsame old hlooked]

theorem keeps_holds : script.Keeps (profileServer cfg) anyStep (fun _ _ => none) (Holds tenantId) where
  start history s γ sid call t hI _ _ hnew ht := by
    refine hI.next (hI.recalled.start hnew ht rfl) (ht ▸ hI.keyed) ?_ (fun _ _ r hr => ht ▸ hr) ?_
    · intro other call' p tx hother hnone
      subst ht
      obtain ⟨rfl, ⟨⟩⟩ | ⟨heq, hother⟩ := setSession_eq_some.mp hother
      · rfl
      · rw [update_of_ne heq] at hnone
        exact hI.clean other call' p tx hother hnone
    · intro other seen hother
      by_cases heq : other = sid
      · simp [heq] at hother
      · rw [update_of_ne heq] at hother
        exact .inl hother
  known history s γ sid call o next tx hI hsession :=
    ⟨hI.keyed, hI.clean sid call _ tx hsession⟩
  run history s γ sid choice call o next tx answer sh' tx' g t hI _ _ hsession hexec hmove ht := by
    have hacts := exec_acts hexec
    have hclean := hI.clean sid call _ tx hsession
    have hcommit (heq : o = .commit) : t.committed = tx.writes ∪ s.committed := by
      subst heq ht
      exact congrArg Scene.committed (show Scene.of sid sh' tx' = _ from hacts)
    have hquiet (hne : o ≠ .commit) : t.committed = s.committed := by
      subst ht
      exact hacts.committed hne
    refine hI.next (hI.recalled.run hsession ht hmove.recalls) ?_ ?_ ?_ ?_
    · by_cases heq : o = .commit
      · obtain ⟨seen, -, hjudged⟩ := hmove.commits heq
        rw [hcommit heq]
        exact keyed_of_commit hI.keyed hjudged
      · rw [hquiet heq]
        exact hI.keyed
    · intro other call' p tx'' hother hnone
      subst ht
      obtain ⟨rfl, ⟨⟩⟩ | ⟨heq, hother⟩ := setSession_eq_some.mp hother
      · rw [update_self] at hnone
        exact hmove.clean hnone
      · rw [update_of_ne heq] at hnone
        exact hI.clean other call' p tx'' hother hnone
    · intro huncontested hseen r hr
      by_cases heq : o = .commit
      · obtain ⟨seen, hg, hjudged⟩ := hmove.commits heq
        rw [hcommit heq]
        subst heq
        have hfirst : firstSeen sid history = some seen := (hI.recalled.view_eq sid).symm.trans hg
        exact regionOf_commit hjudged (fun r => hseen sid seen r hg)
          (fun row => huncontested sid choice call next tx seen row rfl hsession hfirst) hr
      · rwa [hquiet heq]
    · intro other seen hother
      by_cases heq : other = sid
      · subst heq
        rw [update_self] at hother
        exact recalled_of_move hmove hclean hother
      · rw [update_of_ne heq] at hother
        exact .inl hother
  crash history s γ sid call p tx t hI _ _ hsession ht := by
    refine hI.next (hI.recalled.crash ht) (ht ▸ hI.keyed) ?_ (fun _ _ r hr => ht ▸ hr)
      fun _ _ h => .inl h
    intro other call' p' tx' hother hnone
    subst ht
    obtain ⟨-, ⟨⟩⟩ | ⟨-, hother⟩ := setSession_eq_some.mp hother
    exact hI.clean other call' p' tx' hother hnone
  tick history s γ elapsed t hI _ _ ht := by
    subst ht
    exact hI.next (hI.recalled.tick rfl) hI.keyed hI.clean (fun _ _ r hr => hr) fun _ _ h => .inl h

theorem kept_of_uncontested (hrest : s.AtRest) (hkeyed : KeyedTenants s.committed)
    (hrun : Run (profileServer cfg) anyStep s history t)
    (huncontested : ∀ earlier e, e :: earlier <:+ history → Uncontested tenantId earlier e) :
    Kept tenantId history t := by
  have hinit : Holds tenantId [] s fun _ => none := by
    refine ⟨.nil fun _ => rfl, hkeyed, fun sid call p tx hsession => ?_, fun _ => ⟨?_, by simp⟩⟩
    · simp [hrest.1 sid] at hsession
    · simp [Kept]
  obtain ⟨γ, hholds, -⟩ := keeps_holds.run_induct (fun _ _ call _ => follows_update call)
    ⟨_, hinit, .of_atRest hrest⟩ hrun
  exact (hholds.kept huncontested).1

theorem uncontested_of_kept (hstep : step (profileServer cfg) e.before e.action = some e.after)
    (hkept : Kept tenantId (e :: earlier) e.after) : Uncontested tenantId earlier e := by
  intro sid choice call next tx seen row haction hsession _ hwritten _ hclassified
  obtain ⟨r, hr⟩ := ne_none_iff_exists'.mp hclassified
  have hafter := hkept e mem_cons_self r hr
  rw [haction] at hstep
  rw [commit_step hsession hstep, regionOf, lookup_union, hwritten] at hafter
  rw [hr]
  exact hafter.symm

/-- A run keeps every region it commits exactly if no first classification of it is committed over
another region. -/
theorem residency_kept_iff (hrest : s.AtRest) (hkeyed : KeyedTenants s.committed)
    (hrun : Run (profileServer cfg) anyStep s history t) :
    (∀ earlier e, e :: earlier <:+ history → Kept tenantId (e :: earlier) e.after) ↔
      ∀ earlier e, e :: earlier <:+ history → Uncontested tenantId earlier e := by
  constructor
  · intro hkept earlier e hsuffix
    exact uncontested_of_kept (hrun.before hsuffix).2.2 (hkept earlier e hsuffix)
  · intro huncontested earlier e hsuffix
    obtain ⟨hbefore, hok, hstep⟩ := hrun.before hsuffix
    exact kept_of_uncontested hrest hkeyed (.cons hbefore hok hstep) fun earlier' e' hsuffix' =>
      huncontested earlier' e' (hsuffix'.trans hsuffix)

def unclassified : ProfileState where
  committed := AList.singleton (.tenant 1) { demoTenant with regionalProfile := none }
  upstream := demoState.upstream
  clock := 0
  nextId := 100
  locks _ := none
  reserved _ := none
  sessions _ := none

theorem unclassified_atRest : unclassified.AtRest := ⟨fun _ => rfl, fun _ => rfl, fun _ => rfl⟩

theorem unclassified_keyed : KeyedTenants unclassified.committed := by
  intro id row hrow
  have hmem : Key.tenant id ∈ unclassified.committed.keys :=
    AList.mem_keys.mp (AList.lookup_isSome.mp (by simp [hrow]))
  obtain rfl : id = 1 := by simpa [unclassified] using hmem
  cases hrow
  rfl

def classifyAs (dataRegion : String) : ProfileUpdate where
  slug := "acme"
  profile := ⟨"PL", "EU", "pl", "Europe/Warsaw", "PLN", "d", "n", dataRegion⟩

def keptCheck (history : List ProfileStep) : Bool :=
  history.tails.all fun
    | [] => true
    | e :: earlier => (e :: earlier).all fun e' =>
      regionOf e'.before.committed 1 = none ||
        regionOf e'.before.committed 1 = regionOf e.after.committed 1

theorem kept_of_keptCheck {history : List ProfileStep} (hcheck : keptCheck history = true)
    (hsuffix : e :: earlier <:+ history) : Kept 1 (e :: earlier) e.after := by
  intro e' he' r hr
  have htail := all_eq_true.mp hcheck _ ((mem_tails _ _).mpr hsuffix)
  have hregion := all_eq_true.mp htail e' he'
  simpa [hr, eq_comm] using hregion

def inTurn : List (Action Key ProfileUpdate) :=
  alone 0 (classifyAs "eu") 10 ++ alone 1 (classifyAs "eu") 10

def racing : List (Action Key ProfileUpdate) :=
  alone 0 (classifyAs "eu") 2 ++ alone 1 (classifyAs "us") 10 ++
    List.replicate 8 (.run 0 ⟨[], .answered⟩)

theorem residency_kept_iff_in_turn :
    ∃ history t, Run (profileServer demoConfig) anyStep unclassified history t ∧
      regionOf t.committed 1 = some "eu" ∧
      ∀ earlier e, e :: earlier <:+ history → Uncontested 1 earlier e := by
  have hrecord : ((recordSchedule (profileServer demoConfig) [] unclassified inTurn).any fun p =>
      keptCheck p.1 && regionOf p.2.committed 1 = some "eu") = true := by decide
  obtain ⟨⟨history, t⟩, hschedule, hcheck⟩ := (any_eq_true _ _).mp hrecord
  rw [Bool.and_eq_true, decide_eq_true_eq] at hcheck
  have hrun := run_of_recordSchedule hschedule
  refine ⟨history, t, hrun, hcheck.2, ?_⟩
  exact (residency_kept_iff unclassified_atRest unclassified_keyed hrun).mp fun _ _ =>
    kept_of_keptCheck hcheck.1

/-- Two first classifications that both looked at the unclassified tenant are both committed. -/
theorem residency_lost_by_racing_updates :
    unclassified.AtRest ∧ KeyedTenants unclassified.committed ∧
      ∃ history t, Run (profileServer demoConfig) anyStep unclassified history t ∧
        ∃ e ∈ history, regionOf e.before.committed 1 = some "us" ∧
          regionOf t.committed 1 = some "eu" := by
  have hrecord : ((recordSchedule (profileServer demoConfig) [] unclassified racing).any fun p =>
      p.1.any fun e => regionOf e.before.committed 1 = some "us" ∧
        regionOf p.2.committed 1 = some "eu") = true := by decide
  obtain ⟨⟨history, t⟩, hschedule, hmoved⟩ := (any_eq_true _ _).mp hrecord
  obtain ⟨e, hmem, hregions⟩ := any_eq_true.mp hmoved
  exact ⟨unclassified_atRest, unclassified_keyed, history, t, run_of_recordSchedule hschedule, e,
    hmem, of_decide_eq_true hregions⟩

end Residency

end ControlPlane
