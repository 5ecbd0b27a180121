import ControlPlane.Proof.Scripts
import ControlPlane.ReadCommitted.Holding
import ControlPlane.Store.Creation

/-!
# Capacity of a shared cluster

Whoever adds to the cluster holds the advisory lock from before the count, and only one session can.
-/

namespace ControlPlane

open ReadCommitted ReadCommitted.Handler Store Function List Option

abbrev CreationState :=
  Sys Row Index ManagementRequest (Except ApiError Json) Upstream TenantCreation
    (Except ApiError TenantSummary)

abbrev CreationStep :=
  Event Row Index ManagementRequest (Except ApiError Json) Upstream TenantCreation
    (Except ApiError TenantSummary)

namespace Capacity

def onCluster (cluster : String) (db : AList Row) : Key → Bool
  | .tenant id => (db.lookup (.tenant id)).any (sharesCluster cluster)
  | _ => false

theorem sharedPgTenants_eq (cluster : String) (db : AList Row) :
    sharedPgTenants cluster db = (db.keys.filter (onCluster cluster db)).length := by
  rw [sharedPgTenants, tenantsOf, countP_filterMap, countP_eq_length_filter]
  congr 2
  funext key
  cases key with
  | tenant id =>
    simp only [onCluster]
    cases db.lookup (.tenant id) <;> rfl
  | _ => rfl

variable {cluster : String} {db db' : AList Row}

theorem mem_of_onCluster {key : Key} (hon : onCluster cluster db key = true) : key ∈ db.keys := by
  cases key with
  | tenant id =>
    obtain ⟨row, hrow, -⟩ := (any_eq_true _ _).mp hon
    exact AList.lookup_isSome.mp (by simp [hrow])
  | _ => simp [onCluster] at hon

theorem sharedPgTenants_le (added : List Key)
    (hold : ∀ key, onCluster cluster db' key = true → onCluster cluster db key = true ∨ key ∈ added) :
    sharedPgTenants cluster db' ≤ sharedPgTenants cluster db + added.length := by
  rw [sharedPgTenants_eq, sharedPgTenants_eq, ← length_append]
  have hnodup : (db'.keys.filter (onCluster cluster db')).Nodup := db'.keys_nodup.filter _
  refine (hnodup.subperm fun key hkey => ?_).length_le
  obtain ⟨-, hon⟩ := mem_filter.mp hkey
  obtain hon' | hadded := hold key hon
  · exact mem_append_left _ (mem_filter.mpr ⟨mem_of_onCluster hon', hon'⟩)
  · exact mem_append_right _ hadded

theorem sharedPgTenants_congr
    (hsame : ∀ id : Uuid, db'.lookup (.tenant id) = db.lookup (.tenant id)) :
    sharedPgTenants cluster db' = sharedPgTenants cluster db := by
  have hon (key : Key) : onCluster cluster db' key = onCluster cluster db key := by
    cases key with
    | tenant id => rw [onCluster, hsame, onCluster]
    | _ => rfl
  refine le_antisymm (sharedPgTenants_le [] fun key h => .inl ((hon key).symm.trans h)) ?_
  exact sharedPgTenants_le [] fun key h => .inl ((hon key).trans h)

inductive Phase
  | idle
  | locked (version : Option Unit)
  | counted (version : Option Unit) (used : Nat)
  | created

variable (cfg : Config)

def held : Phase → (key : Key) → Option (Row key) → Prop
  | .locked version, .advisory key, current | .counted version _, .advisory key, current =>
    key = cfg.hashtext cfg.sharedPgCluster ∧ current = version
  | _, _, _ => False

inductive Move : Phase → Op Row ManagementRequest → Scene Row Upstream → Phase →
    Scene Row Upstream → Prop
  | stays (g : Phase) (o : Op Row ManagementRequest) (c c' : Scene Row Upstream)
      (ho : o ≠ .commit) : Move g o c g c'
  | locks (o : Op Row ManagementRequest) (c c' : Scene Row Upstream) (ho : o ≠ .commit)
      (version : Option Unit) : Move .idle o c (.locked version) c'
  | counts (o : Op Row ManagementRequest) (c c' : Scene Row Upstream) (ho : o ≠ .commit)
      (version : Option Unit) : Move (.locked version) o c
        (.counted version (sharedPgTenants cfg.sharedPgCluster c.committed)) c'
  | drops (g : Phase) (o : Op Row ManagementRequest) (c c' : Scene Row Upstream) (ho : o ≠ .commit)
      (hg : g ≠ .created) : Move g o c .idle c'
  | leaves (c : Scene Row Upstream)
      (hcount : sharedPgTenants cfg.sharedPgCluster c.committing.committed ≤
        sharedPgTenants cfg.sharedPgCluster c.committed) :
      Move .idle .commit c .created c.committing
  | adds (c : Scene Row Upstream) (version : Option Unit) (used : Nat)
      (hroom : ¬ cfg.sharedPgMaxTenants ≤ used)
      (hcount : sharedPgTenants cfg.sharedPgCluster c.committing.committed ≤
        sharedPgTenants cfg.sharedPgCluster c.committed + 1) :
      Move (.counted version used) .commit c .created c.committing

def script : Script Row ManagementRequest Upstream Phase where
  known _ _ := True
  move := Move cfg

theorem passes (K : Key → Prop) : ((script cfg).holding (held cfg)).Passes schema K := by
  refine Script.Passes.holding fun g o c answer c' _ hspares _ => .stays g o c c' ?_
  rintro rfl
  exact absurd hspares (by simp [Op.Spares])

section Follows

variable {cfg}

variable {g : Phase} {w : AList Row} {P : Phase → Prop} {Q : Unit → AList Row → Phase → Prop}
  {E : ApiError → AList Row → Phase → Prop} {input : TenantCreation}

theorem rollback_allowed (hg : g ≠ .created) (hP : P .idle) :
    ((script cfg).holding (held cfg)).Drops g w P :=
  fun c _ _ => ⟨.idle, ⟨.drops g _ c _ (by simp) hg, fun _ _ h => h.elim⟩, hP⟩

def isTenant : Key → Prop
  | .tenant _ => True
  | _ => False

/-- What a creation has before it when it inserts its tenant: the cluster counted with room left, or
nothing to do with it. -/
def Admitted (cfg : Config) (place : Placement) : Phase → Prop
  | .idle => place ≠ .sharedPg
  | .counted _ used => ¬ cfg.sharedPgMaxTenants ≤ used
  | _ => False

theorem Admitted.ne_created {place : Placement} (hadmitted : Admitted cfg place g) :
    g ≠ .created := by
  rintro rfl
  exact hadmitted

theorem follows_ensureCapacity (hE : ∀ e w g, g ≠ .created → E e w g)
    (hQ : ∀ w version (used : Nat), FreeOf isTenant w → ¬ cfg.sharedPgMaxTenants ≤ used →
      Q () w (.counted version used)) :
    Follows schema ((script cfg).holding (held cfg)) (ensureCapacity cfg) ∅ .idle Q E := by
  refine .bind (.bind (.upsert ?_ ?_))
  · intro c _ hwrites
    refine ⟨.locked (c.committed.lookup (.advisory (cfg.hashtext cfg.sharedPgCluster))),
      ⟨.locks _ c _ (by simp) _, ?_⟩,
      .pure ?_⟩
    · intro key version hheld
      cases key with
      | advisory key =>
        obtain ⟨rfl, rfl⟩ := hheld
        exact ⟨.inl rfl, rfl⟩
      | _ => exact hheld.elim
    · refine .bind (.ask ?_)
      rintro _ _ c' hknown hwrites' ⟨rfl, rfl⟩
      refine ⟨_, ⟨.counts _ c' c' (by simp) _, ?_⟩, ?_⟩
      · intro key version hheld
        cases key with
        | advisory key => exact hknown.2 (.advisory key) version hheld
        | _ => exact hheld.elim
      · have hfree : FreeOf isTenant c'.writes := by
          intro key hkey
          cases key with
          | tenant id => rw [hwrites', AList.lookup_insert_ne (by simp)]; rfl
          | _ => exact hkey.elim
        have hcount : sharedPgTenants cfg.sharedPgCluster c'.seen =
            sharedPgTenants cfg.sharedPgCluster c'.committed := by
          refine sharedPgTenants_congr fun id => ?_
          rw [Scene.lookup_seen, hfree (.tenant id) trivial, none_or]
        refine .ensure (fun hroom => hQ _ _ _ hfree ?_) fun _ => hE _ _ _ (by simp)
        rwa [hcount] at hroom
  · intro c e _ _
    exact ⟨.idle, ⟨.stays _ _ c c (by simp), fun _ _ h => h.elim⟩, hE _ _ _ (by simp)⟩

structure Inserted (cfg : Config) (input : TenantCreation) (tenant : TenantRow) (w : AList Row)
    (g : Phase) : Prop where
  admitted : Admitted cfg input.place g
  only : ∀ (id : Uuid) (row : TenantRow), w.lookup (.tenant id) = some row →
    id = tenant.id ∧ row = tenant

theorem follows_insertTenant {tenant : TenantRow} (hfree : FreeOf isTenant w)
    (hadmitted : Admitted cfg input.place g) (hE : ∀ e w g, g ≠ .created → E e w g)
    (hQ : ∀ w', Inserted cfg input tenant w' g → Q () w' g) :
    Follows schema ((script cfg).holding (held cfg)) (insertTenant tenant) w g Q E := by
  refine .bind (.of_stays (passes cfg isTenant g)
    (.insert (by simp [isTenant])) (fun reserved w' hagree => ?_) fun _ _ _ => hE _ _ _ hadmitted.ne_created)
  refine .bind (.ensure (fun _ => ?_) fun _ => hE _ _ _ hadmitted.ne_created)
  refine .bind (.insert_of_passes (passes cfg (fun _ => False) g)
    (fun h => h) (fun c _ hwrites _ => ?_) ?_ (hE _ _ _ hadmitted.ne_created))
  · refine .ensure (fun _ => hQ _ ⟨hadmitted, fun id row hrow => ?_⟩) fun _ =>
    hE _ _ _ hadmitted.ne_created
    by_cases heq : id = tenant.id
    · subst heq
      rw [AList.lookup_insert, some.injEq] at hrow
      exact ⟨rfl, hrow.symm⟩
    · rw [AList.lookup_insert_ne (by simpa using heq), hagree (.tenant id) trivial,
        hfree (.tenant id) trivial] at hrow
      simp at hrow
  · exact .ensure (fun h => absurd h (by simp)) fun _ => hE _ _ _ hadmitted.ne_created

theorem commit_allowed {id : Uuid} {now : Instant}
    (hinserted : Inserted cfg input (createdTenant cfg input id now) w g) (hP : P .created) :
    ((script cfg).holding (held cfg)).Commits g w P := by
  intro c _ hwrites
  have hcases (key : Key) (hon : onCluster cfg.sharedPgCluster c.committing.committed key = true) :
      onCluster cfg.sharedPgCluster c.committed key = true ∨
        key = .tenant id ∧ input.place = .sharedPg := by
    cases key with
    | tenant other =>
      rw [onCluster, Scene.lookup_committing, hwrites] at hon
      cases hwritten : w.lookup (.tenant other) with
      | none =>
        rw [hwritten, none_or] at hon
        exact .inl hon
      | some row =>
        obtain ⟨rfl, rfl⟩ := hinserted.only other row hwritten
        rw [hwritten, some_or] at hon
        have hshares := (Bool.and_eq_true _ _).mp hon
        exact .inr ⟨rfl, of_decide_eq_true hshares.1⟩
    | _ => simp [onCluster] at hon
  have hadmitted := hinserted.admitted
  cases g with
  | idle =>
    refine ⟨.created, ⟨.leaves c ?_, fun _ _ h => h.elim⟩, hP⟩
    refine sharedPgTenants_le [] fun key hon => .inl ?_
    obtain hbefore | ⟨-, hshared⟩ := hcases key hon
    · exact hbefore
    · exact absurd hshared hadmitted
  | counted version used =>
    refine ⟨.created, ⟨.adds c version used hadmitted ?_, fun _ _ h => h.elim⟩, hP⟩
    refine sharedPgTenants_le [.tenant id] fun key hon => ?_
    obtain hbefore | ⟨hkey, -⟩ := hcases key hon
    · exact .inl hbefore
    · exact .inr (by simp [hkey])
  | locked version => exact hadmitted.elim
  | created => exact hadmitted.elim

theorem spares_createOperatorAccount (tenantId : Uuid) (operator : InitialOperator) :
    Spares isTenant false (createOperatorAccount tenantId operator) :=
  .bind .fresh fun _ => .bind (.insert (by simp [isTenant])) fun _ => .ensure _

theorem spares_deployWithTenant (tenant : TenantRow) (deployment : TenantDeploymentSpec)
    (actor : String) (now : Instant) :
    Spares isTenant false (deployWithTenant cfg tenant deployment actor now) :=
  .bind (.require _) fun _ => .bind .fresh fun _ => .bind (.insert (by simp [isTenant])) fun _ =>
    .ensure _

def promise (_ : TenantCreation) (answer : Except ApiError TenantSummary) (g : Phase) : Prop :=
  ∀ e, answer = .error e → g ≠ .created

theorem follows_create (input : TenantCreation) :
    ((creationServer cfg).handler input).Follows schema ((script cfg).holding (held cfg)) ∅ .idle
      fun answer _ g => promise input answer g := by
  have herror {e : ApiError} {w : AList Row} {g : Phase} (hg : g ≠ .created) :
      ((script cfg).holding (held cfg)).Drops g w (promise input (.error e)) :=
    rollback_allowed hg (by simp [promise])
  refine follows_run (.bind (.snapshot (passes cfg isTenant _) fun _ _ _ => ?_))
  refine .bind (.ensure (fun _ => ?_) fun _ => by simp [promise])
  refine .bind (.fresh (passes cfg isTenant _) fun id => ?_)
  refine .inTransaction fun c _ _ =>
    ⟨.idle, ⟨.stays _ _ c _ (by simp), fun _ _ h => h.elim⟩, ?_⟩
  refine .bind (.sqlNow (passes cfg isTenant _) fun began _ _ => ?_)
  refine .bind (.mono (Q := fun _ w g => FreeOf isTenant w ∧ Admitted cfg input.place g)
    ?_ (fun _ _ _ h => h) (.whenever (fun _ => ?_) fun hplace => ?_))
  · rintro _ w g ⟨hfree, hadmitted⟩
    refine .bind (follows_insertTenant hfree hadmitted (fun _ _ _ => herror) ?_)
    intro w' hinserted
    have hstill {w'' : AList Row} (hagree : AgreeOn isTenant w' w'') :
        Inserted cfg input (createdTenant cfg input id began.start) w'' g :=
      ⟨hinserted.admitted, fun id row hrow =>
        hinserted.only id row (by rw [← hagree (.tenant id) trivial, hrow])⟩
    refine .bind (.of_stays (passes cfg isTenant g)
      (.forSome fun _ => spares_createOperatorAccount _ _) (fun _ w₁ hagree => ?_)
      fun _ _ _ => herror hadmitted.ne_created)
    refine .bind (.of_stays (passes cfg isTenant g)
      (.forSome fun _ => spares_deployWithTenant _ _ _ _) (fun _ w₂ hagree' => ?_)
      fun _ _ _ => herror hadmitted.ne_created)
    refine .pure (commit_allowed (hstill fun key hkey => ?_) (by simp [promise]))
    exact (hagree' key hkey).trans (hagree key hkey)
  · exact follows_ensureCapacity (fun _ _ _ => herror) fun w version used hfree hroom =>
      ⟨hfree, hroom⟩
  · exact ⟨.empty, hplace⟩

end Follows

def SameTenants (db db' : AList Row) : Prop :=
  ∀ id : Uuid, db'.lookup (.tenant id) = db.lookup (.tenant id)

def Unmoved (sid : Nat) (history : List CreationStep) : Prop :=
  ∀ e ∈ history, ∀ choice, e.action = .run sid choice →
    SameTenants e.before.committed e.after.committed

structure Holds (history : List CreationStep) (s : CreationState) (γ : Nat → Phase) : Prop where
  fits : sharedPgTenants cfg.sharedPgCluster s.committed ≤ cfg.sharedPgMaxTenants
  counted : ∀ sid tx version used, s.InFlight sid tx → γ sid = .counted version used →
    sharedPgTenants cfg.sharedPgCluster s.committed ≤ used
  unmoved : ∀ sid, γ sid ≠ .created → Unmoved sid history
  unstarted : ∀ sid, s.sessions sid = none → γ sid ≠ .created

variable {cfg} {history : List CreationStep} {s t : CreationState} {γ γ' : Nat → Phase} {sid : Nat}

variable {a : Action Key TenantCreation}

theorem Unmoved.cons (hunmoved : Unmoved sid history)
    (hsame : ∀ choice, a = .run sid choice → SameTenants s.committed t.committed) :
    Unmoved sid (⟨s, a, t⟩ :: history) := by
  intro e he choice haction
  obtain rfl | he := mem_cons.mp he
  · exact hsame choice haction
  · exact hunmoved e he choice haction

theorem Holds.unchanged (hholds : Holds cfg history s γ) (hsame : t.committed = s.committed)
    (hcounted : ∀ sid tx version used, t.InFlight sid tx → γ' sid = .counted version used →
      sharedPgTenants cfg.sharedPgCluster s.committed ≤ used)
    (hcreated : ∀ sid, γ' sid ≠ .created → γ sid ≠ .created)
    (hunstarted : ∀ sid, t.sessions sid = none → γ' sid ≠ .created) :
    Holds cfg (⟨s, a, t⟩ :: history) t γ' where
  fits := hsame ▸ hholds.fits
  counted := hsame ▸ hcounted
  unmoved sid hsid := by
    refine (hholds.unmoved sid (hcreated sid hsid)).cons fun _ _ id => ?_
    rw [hsame]
  unstarted := hunstarted

variable
  {session : Session Row ManagementRequest (Except ApiError Json) TenantCreation
    (Except ApiError TenantSummary)}
  {sh : Shared Row Index Upstream} {other : Nat} {tx : Txn Row} {version : Option Unit} {used : Nat}
  {g : Phase}

theorem Holds.counted_of_ne (hholds : Holds cfg history s γ) (hne : other ≠ sid)
    (hflight : (s.setSession sid session sh).InFlight other tx)
    (hcounted : γ other = .counted version used) :
    sharedPgTenants cfg.sharedPgCluster s.committed ≤ used := by
  obtain ⟨heq, -⟩ | ⟨-, hflight⟩ := hflight.cases
  · exact absurd heq hne
  · exact hholds.counted other tx version used hflight hcounted

theorem unstarted_setSession (hunstarted : ∀ sid, s.sessions sid = none → γ sid ≠ .created)
    (other : Nat) (hnone : (s.setSession sid session sh).sessions other = none) :
    update γ sid g other ≠ .created := by
  obtain ⟨hne, hnone⟩ := setSession_eq_none.mp hnone
  rw [update_of_ne hne]
  exact hunstarted other hnone

theorem Holds.enter (hholds : Holds cfg history s γ) (hsame : sh.committed = s.committed)
    (hcounted : ∀ version used, g = .counted version used →
      sharedPgTenants cfg.sharedPgCluster s.committed ≤ used)
    (hcreated : g ≠ .created → γ sid ≠ .created) :
    Holds cfg (⟨s, a, s.setSession sid session sh⟩ :: history) (s.setSession sid session sh)
      (update γ sid g) := by
  refine hholds.unchanged hsame ?_ ?_ (unstarted_setSession hholds.unstarted)
  · intro other tx version used hflight hg
    by_cases heq : other = sid
    · subst heq
      rw [update_self] at hg
      exact hcounted version used hg
    · rw [update_of_ne heq] at hg
      exact hholds.counted_of_ne heq hflight hg
  · intro other hother
    by_cases heq : other = sid
    · subst heq
      rw [update_self] at hother
      exact hcreated hother
    · rwa [update_of_ne heq] at hother

theorem Holds.commit {choice : Choice Key} (hholds : Holds cfg history s γ)
    (hfits : sharedPgTenants cfg.sharedPgCluster sh.committed ≤ cfg.sharedPgMaxTenants)
    (hcounted : ∀ other tx version used, other ≠ sid → s.InFlight other tx →
      γ other = .counted version used → sharedPgTenants cfg.sharedPgCluster sh.committed ≤ used) :
    Holds cfg (⟨s, .run sid choice, s.setSession sid session sh⟩ :: history)
      (s.setSession sid session sh) (update γ sid .created) where
  fits := hfits
  counted other tx version used hflight hg := by
    by_cases heq : other = sid
    · simp [heq] at hg
    · rw [update_of_ne heq] at hg
      obtain ⟨heq', -⟩ | ⟨-, hflight⟩ := hflight.cases
      · exact absurd heq' heq
      · exact hcounted other tx version used heq hflight hg
  unmoved other hother := by
    have hne : other ≠ sid := by
      rintro rfl
      simp at hother
    rw [update_of_ne hne] at hother
    refine (hholds.unmoved other hother).cons fun choice' haction => ?_
    exact absurd (Action.run.inj haction).1.symm hne
  unstarted := unstarted_setSession hholds.unstarted

def Invariant (cfg : Config) : RunInvariant Row Index ManagementRequest (Except ApiError Json) Upstream
    TenantCreation (Except ApiError TenantSummary) Phase := fun history s γ =>
  Holds cfg history s γ ∧ True ∧ Disciplined s ∧ HoldsRows (held cfg) s γ

theorem keeps_rows : ((script cfg).holding (held cfg)).Keeps (creationServer cfg) anyStep
    (fun _ _ => .idle) fun _ s γ => True ∧ Disciplined s ∧ HoldsRows (held cfg) s γ :=
  Script.Keeps.holding (I := fun _ _ _ => True)
    ⟨fun _ _ _ _ _ _ _ _ _ _ _ => trivial, fun _ _ _ _ _ _ _ _ _ _ => trivial,
      fun _ _ _ _ _ _ _ _ _ _ _ _ _ _ _ _ _ _ _ _ _ => trivial,
      fun _ _ _ _ _ _ _ _ _ _ _ _ _ => trivial, fun _ _ _ _ _ _ _ _ _ => trivial⟩
    fun _ _ _ _ h => h.elim

theorem counted_alone {tx' : Txn Row} {version' : Option Unit} {used' : Nat}
    (hrows : HoldsRows (held cfg) s γ) (hflight : s.InFlight sid tx)
    (hflight' : s.InFlight other tx') (hsid : γ sid = .counted version used)
    (hother : γ other = .counted version' used') : other = sid := by
  have hlock := (hrows sid tx hflight (.advisory (cfg.hashtext cfg.sharedPgCluster)) version
    (by rw [hsid]; exact ⟨rfl, rfl⟩)).mine
  have hlock' := (hrows other tx' hflight' (.advisory (cfg.hashtext cfg.sharedPgCluster)) version'
    (by rw [hother]; exact ⟨rfl, rfl⟩)).mine
  exact some.inj (hlock'.symm.trans hlock)

theorem keeps_holds : ((script cfg).holding (held cfg)).Keeps (creationServer cfg) anyStep
    (fun _ _ => .idle) (Invariant cfg) where
  start history s γ sid call t hI hok hstep hnew ht := by
    refine ⟨?_, keeps_rows.start history s γ sid call t hI.2 hok hstep hnew ht⟩
    subst ht
    exact hI.1.enter rfl (by simp) fun _ => hI.1.unstarted sid hnew
  known history s γ sid call o next tx hI hsession :=
    keeps_rows.known history s γ sid call o next tx hI.2 hsession
  run history s γ sid choice call o next tx answer sh' tx' g t hI hok hstep hsession hexec hmove ht := by
    refine ⟨?_, keeps_rows.run history s γ sid choice call o next tx answer sh' tx' g t hI.2 hok hstep
      hsession hexec hmove ht⟩
    obtain ⟨hholds, -, -, hrows⟩ := hI
    have hacts := exec_acts hexec
    have hflight : s.InFlight sid tx := ⟨call, o, next, hsession⟩
    subst ht
    generalize hphase : γ sid = g₀ at hmove
    generalize hscene : Scene.of sid s.toShared tx = c at hmove hacts
    generalize hscene' : Scene.of sid sh' tx' = c' at hmove hacts
    have hbefore : c.committed = s.committed := by rw [← hscene]; rfl
    have hafter : c'.committed = sh'.committed := by rw [← hscene']; rfl
    have hquiet (ho : o ≠ .commit) : sh'.committed = s.committed := by
      rw [← hafter, ← hbefore]
      exact hacts.committed ho
    cases hmove.1 with
    | stays _ _ _ _ ho =>
      refine hholds.enter (hquiet ho) (fun version used hg => ?_) fun h => hphase ▸ h
      exact hholds.counted sid tx version used hflight (hphase.trans hg)
    | locks _ _ _ ho version => exact hholds.enter (hquiet ho) (by simp) fun _ => by simp [hphase]
    | counts _ _ _ ho version =>
      refine hholds.enter (hquiet ho) (fun version' used hg => ?_) fun _ => by simp [hphase]
      rw [← (Phase.counted.inj hg).2, hbefore]
    | drops _ _ _ _ ho hg => exact hholds.enter (hquiet ho) (by simp) fun _ => hphase ▸ hg
    | leaves _ hcount =>
      rw [hafter, hbefore] at hcount
      refine hholds.commit ?_ fun other tx' version used _ hother hg => ?_
      · exact (Int.ofNat_le.mpr hcount).trans hholds.fits
      · exact hcount.trans (hholds.counted other tx' version used hother hg)
    | adds _ version used hroom hcount =>
      rw [hafter, hbefore] at hcount
      have hused := hholds.counted sid tx version used hflight hphase
      refine hholds.commit (by omega) fun other tx' version' used' hne hother hg => ?_
      exact absurd (counted_alone hrows hflight hother hphase hg) hne
  crash history s γ sid call p tx t hI hok hstep hsession ht := by
    refine ⟨?_, keeps_rows.crash history s γ sid call p tx t hI.2 hok hstep hsession ht⟩
    subst ht
    refine hI.1.unchanged rfl (fun other tx' version used hflight hg => ?_) (fun _ h => h)
      fun other hnone => ?_
    · exact hI.1.counted other tx' version used hflight.before_crash hg
    · exact hI.1.unstarted other (setSession_eq_none.mp hnone).2
  tick history s γ elapsed t hI hok hstep ht := by
    refine ⟨?_, keeps_rows.tick history s γ elapsed t hI.2 hok hstep ht⟩
    subst ht
    exact hI.1.unchanged rfl hI.1.counted (fun _ h => h) hI.1.unstarted

/-- The tenants on the shared cluster never exceed its capacity; a refused creation has not changed
them in any of its steps. -/
theorem capacity_kept (hrest : s.AtRest)
    (hfits : sharedPgTenants cfg.sharedPgCluster s.committed ≤ cfg.sharedPgMaxTenants)
    (hrun : Run (creationServer cfg) anyStep s history t) :
    sharedPgTenants cfg.sharedPgCluster t.committed ≤ cfg.sharedPgMaxTenants ∧
      ∀ sid e, t.returned sid = some (.error e) → Unmoved sid history := by
  have hinit : Holds cfg [] s fun _ => .idle :=
    ⟨hfits, by simp, fun _ _ => by simp [Unmoved], by simp⟩
  have hrows : HoldsRows (held cfg) s fun _ => Phase.idle := fun _ _ _ _ _ h => h.elim
  obtain ⟨γ, ⟨hholds, -⟩, hfollowed⟩ := keeps_holds.run_induct
    (fun _ _ call _ => follows_create call)
    ⟨_, ⟨hinit, trivial, disciplined_of_atRest hrest, hrows⟩, .of_atRest hrest⟩ hrun
  refine ⟨hholds.fits, fun sid e hreturned => hholds.unmoved sid ?_⟩
  obtain ⟨call, tx, hsession⟩ := Sys.returned_eq_some.mp hreturned
  have hpromise := Prog.follows_ret.mp (hfollowed sid call _ tx hsession)
  exact hpromise e rfl

def emptyCluster : CreationState where
  committed := ∅
  upstream := demoState.upstream
  clock := 0
  nextId := 100
  locks _ := none
  reserved _ := none
  sessions _ := none

def demoCreation (slug : String) : TenantCreation where
  slug := slug
  displayName := slug
  workspaceId := none
  crowdrelayBaseUrl := none
  signalBaseUrl := none
  regionalProfile := ⟨"PL", "EU", "pl", "Europe/Warsaw", "PLN", "d", "n", "eu"⟩
  palette := none
  synesthesiaEnabled := false
  areaEnabled := false
  archetype := some .band
  placement := none
  teamMembers := none
  deployment := none
  initialOperator := none
  actor := "admin"

def twoCreations : List (Action Key TenantCreation) :=
  alone 0 (demoCreation "acme") 4 ++ alone 1 (demoCreation "beta") 4 ++
    List.replicate 5 (.run 0 ⟨[], .answered⟩) ++ List.replicate 3 (.run 1 ⟨[], .answered⟩)

theorem capacity_kept_for_two :
    ∃ history t, Run (creationServer demoConfig) anyStep emptyCluster history t ∧
      sharedPgTenants "cluster" t.committed = 1 ∧
      sharedPgTenants "cluster" t.committed ≤ demoConfig.sharedPgMaxTenants ∧
      (∃ e, t.returned 1 = some (.error e)) ∧ Unmoved 1 history := by
  have hrecord : ((recordSchedule (creationServer demoConfig) [] emptyCluster twoCreations).any
      fun p => sharedPgTenants "cluster" p.2.committed = 1 ∧
        (p.2.returned 1).map Except.isOk = some false) = true := by decide
  obtain ⟨⟨history, t⟩, hschedule, hcheck⟩ := (any_eq_true _ _).mp hrecord
  obtain ⟨hone, hrefused⟩ := of_decide_eq_true hcheck
  obtain ⟨answer, hreturned, hanswer⟩ := map_eq_some_iff.mp hrefused
  have hrun := run_of_recordSchedule hschedule
  have hkept := capacity_kept ⟨fun _ => rfl, fun _ => rfl, fun _ => rfl⟩ (by decide) hrun
  cases answer with
  | ok summary => cases hanswer
  | error e => exact ⟨history, t, hrun, hone, hkept.1, ⟨e, hreturned⟩, hkept.2 1 e hreturned⟩

end Capacity

end ControlPlane
