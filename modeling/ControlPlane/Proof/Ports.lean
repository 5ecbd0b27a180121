import ControlPlane.Provisioner.Files

/-!
# Ports of tenants

A run of `prepare_files` reads all deployment records, chooses, and writes one as its last step, so
that no kill can lose or double a port.
-/

namespace ControlPlane.Provisioner

open Interleave Interleave.Task List

def recordedPort (w : World) (slug : String) : Option Int :=
  match (w.tenant slug).deployment with
  | some document => (apiPort document).toOption.join
  | none => none

/-- A deployment record is an object, as far as there is one. -/
def Readable (w : World) (slug : String) : Prop :=
  ∀ document, (w.tenant slug).deployment = some document → isObject document = true

def InRange (config : Config) (port : Int) : Prop := config.portStart ≤ port ∧ port ≤ config.portEnd

instance (config : Config) (port : Int) : Decidable (InRange config port) := by
  unfold InRange
  infer_instance

section Choice

variable {K : Nat → World → Prop} {E : Nat × World → Exn → Prop} {w : World} {config : Config}
  {slug : String}

variable {document : Json} {other : String}

theorem readable_of_none (hnone : (w.tenant slug).deployment = none) : Readable w slug := by
  intro document hdocument
  rw [hnone] at hdocument
  cases hdocument

theorem recordedPort_eq {port : Option Int} (hdocument : (w.tenant slug).deployment = some document)
    (hport : apiPort document = .ok port) : recordedPort w slug = port := by
  simp [recordedPort, hdocument, hport, Except.toOption]

def recorded (w : World) : List String :=
  w.tenants.keys.filter fun slug => (w.tenant slug).deployment.isSome

theorem mem_recorded : other ∈ recorded w ↔ (w.tenant other).deployment ≠ none := by
  unfold recorded
  rw [mem_filter, Option.isSome_iff_ne_none]
  refine and_iff_right_of_imp fun hsome => ?_
  by_contra hkeys
  have hlookup : w.tenants.lookup other = none := AList.lookup_eq_none.mpr hkeys
  simp [World.tenant, hlookup] at hsome

theorem readable_of_recorded (hrecorded : ∀ other ∈ recorded w, Readable w other) (other : String) :
    Readable w other := by
  by_cases hnone : (w.tenant other).deployment = none
  · exact readable_of_none hnone
  · exact hrecorded other (mem_recorded.mpr hnone)

theorem mem_recorded_of_port {port : Int} (hport : recordedPort w other = some port) :
    other ∈ recorded w := by
  rw [mem_recorded]
  intro hnone
  simp [recordedPort, hnone] at hport

variable (hK : ∀ n, K n w) {Q : Nat × World → Nat → Prop}
include hK

/-- A record that is not an object has no port to read. -/
theorem meets_readPort {α : Type} {Q : Nat × World → α → Prop} {f : Option Json → Agent α}
    {g : Option Int → Agent α} {n : Nat}
    (hf : ∀ document, f (some document) = require (apiPort document) >>= g)
    (hnone : Readable w other → recordedPort w other = none →
      Meets (counting exec K) (f none) (n + 1, w) Q E)
    (hsome : Readable w other → Meets (counting exec K) (g (recordedPort w other)) (n + 1, w) Q E)
    (hE : ¬ Readable w other → ∀ e, E (n + 1, w) e) :
    Meets (counting exec K) (ask (.readDeployment other) >>= f) (n, w) Q E := by
  refine .ask_bind (hK n) fun _ => ?_
  simp only [exec]
  cases hdocument : (w.tenant other).deployment with
  | none => exact hnone (readable_of_none hdocument) (by simp [recordedPort, hdocument])
  | some document =>
    rw [hf]
    cases document with
    | obj members =>
      refine .bind (meets_require.mpr ⟨?_, nofun⟩)
      rintro found hfound
      rw [← recordedPort_eq hdocument hfound]
      exact hsome (by simp [Readable, hdocument, isObject])
    | _ =>
      refine .bind (meets_require.mpr ⟨nofun, fun _ _ => hE ?_ _⟩)
      simp [Readable, hdocument, isObject]

theorem meets_checkConflicts {port : Int} {Q : Nat × World → Unit → Prop} (others : List String)
    (hQ : (∀ other ∈ others, other ≠ slug → Readable w other ∧ recordedPort w other ≠ some port) →
      ∀ n, Q (n, w) ())
    (hE : ∀ other ∈ others, other ≠ slug → (¬ Readable w other ∨ recordedPort w other = some port) →
      ∀ n e, E (n, w) e) (n : Nat) :
    Meets (counting exec K) (checkConflicts slug port others) (n, w) Q E := by
  induction others generalizing n with
  | nil => exact .pure (hQ (by simp) n)
  | cons other others ih =>
    have hrest : (other ≠ slug → Readable w other ∧ recordedPort w other ≠ some port) → ∀ n,
        Meets (counting exec K) (checkConflicts slug port others) (n, w) Q E := by
      intro hother n
      refine ih (fun hothers => hQ ?_) (fun o ho => hE o (mem_cons_of_mem _ ho)) n
      exact forall_mem_cons.mpr ⟨hother, hothers⟩
    unfold checkConflicts
    split_ifs with hslug
    · refine meets_readPort hK (fun _ => rfl) (fun hreadable hport => ?_) (fun hreadable => ?_)
        (fun hunreadable => hE other mem_cons_self hslug (.inl hunreadable) _)
      · exact hrest (fun _ => ⟨hreadable, by simp [hport]⟩) (n + 1)
      · refine .bind (meets_ensure.mpr ⟨fun hne => ?_, fun heq => ?_⟩)
        · exact hrest (fun _ => ⟨hreadable, hne⟩) (n + 1)
        · exact hE other mem_cons_self hslug (.inr (not_not.mp heq)) _ _
    · exact hrest (fun h => absurd h hslug) n

theorem meets_allocatedPorts {Q : Nat × World → List Int → Prop} (slugs : List String)
    (hQ : ∀ ports, (∀ other ∈ slugs, Readable w other) →
      (∀ port, port ∈ ports ↔ ∃ other ∈ slugs, recordedPort w other = some port) → ∀ n, Q (n, w) ports)
    (hE : ∀ other ∈ slugs, ¬ Readable w other → ∀ n e, E (n, w) e) (n : Nat) :
    Meets (counting exec K) (allocatedPorts slugs) (n, w) Q E := by
  induction slugs generalizing n Q with
  | nil => exact .pure (hQ [] (by simp) (by simp) n)
  | cons other slugs ih =>
    refine (fun hrest => meets_readPort hK (fun _ => rfl) (fun hreadable hnone => ?_) hrest
      (hE other mem_cons_self · _)) fun hreadable => ?_
    · have hports := hrest hreadable
      rwa [hnone] at hports
    · refine .bind (ih (fun ports hothers hports n => ?_)
        (fun o ho => hE o (mem_cons_of_mem _ ho)) _)
      refine .pure (hQ _ (forall_mem_cons.mpr ⟨hreadable, hothers⟩) (fun port => ?_) n)
      simp [hports, eq_comm]

theorem meets_firstFree {reserved : List Int} (ports : List Nat)
    (hQ : ∀ port ∈ ports, (port : Int) ∉ reserved → w.inUse port = false → ∀ n, Q (n, w) port)
    (hE : (∀ port ∈ ports, (port : Int) ∈ reserved ∨ w.inUse port = true) → ∀ n e, E (n, w) e)
    (n : Nat) : Meets (counting exec K) (firstFree reserved ports) (n, w) Q E := by
  induction ports generalizing n with
  | nil => exact meets_throw.mpr (hE (by simp) _ _)
  | cons port ports ih =>
    have hrest : (port : Int) ∈ reserved ∨ w.inUse port = true → ∀ n,
        Meets (counting exec K) (firstFree reserved ports) (n, w) Q E := by
      intro htaken n
      refine ih (fun p hp => hQ p (mem_cons_of_mem _ hp)) (fun hothers => hE ?_) n
      exact forall_mem_cons.mpr ⟨htaken, hothers⟩
    unfold firstFree
    split_ifs with hreserved
    · exact hrest (.inl hreserved) n
    · refine .ask_bind (hK n) fun _ => ?_
      change Meets _ (if w.inUse port = true then _ else _) (n + 1, w) Q E
      split_ifs with huse
      · exact hrest (.inr huse) (n + 1)
      · exact .pure (hQ port mem_cons_self hreserved (by simpa using huse) (n + 1))

omit hK

/-- A port a tenant may have: its own, if that is in the range, or one that nobody has recorded. -/
structure Chosen (config : Config) (slug : String) (w : World) (port : Nat) : Prop where
  inRange : InRange config port
  own : ∀ value, recordedPort w slug = some value → InRange config value → value = port
  others : ∀ other, other ≠ slug → recordedPort w other ≠ some (port : Int)

/-- There is such a port: the tenant's own is nobody else's, or one of the range is neither recorded nor
in use. -/
structure Choosable (config : Config) (slug : String) (w : World) : Prop where
  readable : ∀ other, Readable w other
  kept : ∀ value, recordedPort w slug = some value → InRange config value →
    ∀ other, other ≠ slug → recordedPort w other ≠ some value
  free : (∀ value, recordedPort w slug = some value → ¬ InRange config value) →
    ∃ port : Nat, InRange config port ∧ (∀ other, recordedPort w other ≠ some (port : Int)) ∧
      w.inUse port = false

include hK

theorem meets_keptPort {Q : Nat × World → Option Nat → Prop}
    (hnone : (∀ value, recordedPort w slug = some value → ¬ InRange config value) →
      ∀ n, Q (n, w) none)
    (hsome : ∀ port : Nat, Choosable config slug w → Chosen config slug w port →
      ∀ n, Q (n, w) (some port))
    (hE : ¬ Choosable config slug w → ∀ n e, E (n, w) e) (n : Nat) :
    Meets (counting exec K) (keptPort config slug) (n, w) Q E := by
  refine meets_readPort hK (fun _ => rfl) (fun _ hport => .pure (hnone (by simp [hport]) _))
    (fun hreadable => ?_) (fun hunreadable => hE (fun h => hunreadable (h.readable slug)) _)
  cases hport : recordedPort w slug with
  | none => exact .pure (hnone (by simp [hport]) _)
  | some value =>
    dsimp only
    split_ifs with hrange
    · refine .ask_bind (hK _) fun _ => ?_
      refine .bind (meets_checkConflicts hK (recorded w) (fun hothers n => ?_)
        (fun other hother hne hbad => hE fun hchoosable => ?_) _)
      · -- the port is the tenant's own, and no other record has it
        have hvalue : ((value.toNat : Nat) : Int) = value := Int.toNat_of_nonneg (by omega)
        have hothers' : ∀ other, other ≠ slug → recordedPort w other ≠ some value :=
          fun other hne hsame => (hothers other (mem_recorded_of_port hsame) hne).2 hsame
        refine .pure (hsome value.toNat
          ⟨readable_of_recorded fun other hother => ?_, fun v hv _ => ?_, fun houtside => ?_⟩
          ⟨by rwa [hvalue], fun v hv _ => ?_, by rwa [hvalue]⟩ n)
        · by_cases hne : other = slug
          · rwa [hne]
          · exact (hothers other hother hne).1
        · rw [hport] at hv
          cases hv
          exact hothers'
        · exact absurd hrange (houtside value hport)
        · rw [hport] at hv
          rw [hvalue]
          exact (Option.some.inj hv).symm
      · rcases hbad with hunreadable | hsame
        · exact hunreadable (hchoosable.readable other)
        · exact hchoosable.kept value hport hrange other hne hsame
    · refine .pure (hnone (fun v hv => ?_) _)
      rw [hport] at hv
      cases hv
      exact hrange

theorem meets_choosePort
    (hQ : ∀ port, Choosable config slug w → Chosen config slug w port → ∀ n, Q (n, w) port)
    (hE : ¬ Choosable config slug w → ∀ n e, E (n, w) e) (n : Nat) :
    Meets (counting exec K) (choosePort config slug) (n, w) Q E := by
  refine .bind (meets_keptPort hK (fun houtside n => ?_)
    (fun port hchoosable hchosen n => .pure (hQ port hchoosable hchosen n)) hE n)
  refine .ask_bind (hK _) fun _ => ?_
  refine .bind (meets_allocatedPorts hK (recorded w) (fun reserved hreadable hreserved n => ?_)
    (fun other _ hunreadable => hE fun hchoosable => hunreadable (hchoosable.readable other)) _)
  have htaken : ∀ {port : Int}, port ∈ reserved ↔ ∃ other, recordedPort w other = some port := by
    intro port
    rw [hreserved]
    exact ⟨fun ⟨other, _, h⟩ => ⟨other, h⟩, fun ⟨other, h⟩ => ⟨other, mem_recorded_of_port h, h⟩⟩
  have hrange : ∀ {port : Nat}, port ∈ range' config.portStart
      (config.portEnd + 1 - config.portStart) ↔ InRange config port := by
    intro port
    rw [mem_range'_1]
    unfold InRange
    omega
  refine meets_firstFree hK _ (fun port hport hfree huse n => ?_) (fun hfull => hE ?_) n
  · have hnobody : ∀ other, recordedPort w other ≠ some (port : Int) := fun other h =>
      hfree (htaken.mpr ⟨other, h⟩)
    refine hQ port ⟨readable_of_recorded hreadable, fun v hv hin => absurd hin (houtside v hv),
      fun _ => ⟨port, hrange.mp hport, hnobody, huse⟩⟩
      ⟨hrange.mp hport, fun v hv hin => absurd hin (houtside v hv), fun other _ => hnobody other⟩ n
  · intro hchoosable
    obtain ⟨port, hinRange, hnobody, huse⟩ := hchoosable.free houtside
    rcases hfull port (hrange.mpr hinRange) with hport | hport
    · obtain ⟨other, hother⟩ := htaken.mp hport
      exact hnobody other hother
    · rw [huse] at hport
      cases hport

end Choice

def SameRecords (w v : World) : Prop := ∀ slug, (v.tenant slug).deployment = (w.tenant slug).deployment

section Records

variable {w v : World} {config : Config} {slug : String} {o : HostOp}

theorem tenant_setTenant (other : String) (tenant : Tenant) :
    (w.setTenant slug tenant).tenant other = if other = slug then tenant else w.tenant other := by
  unfold World.tenant World.setTenant
  by_cases hother : other = slug
  · rw [hother, if_pos rfl, AList.lookup_insert, Option.getD_some]
  · rw [if_neg hother, AList.lookup_insert_ne hother]

@[simp]
theorem tenant_setTenant_self (tenant : Tenant) : (w.setTenant slug tenant).tenant slug = tenant := by
  rw [tenant_setTenant, if_pos rfl]

theorem SameRecords.setTenant {tenant : Tenant} (hsame : SameRecords w v)
    (htenant : tenant.deployment = (v.tenant slug).deployment) :
    SameRecords w (v.setTenant slug tenant) := by
  intro other
  rw [tenant_setTenant]
  split
  · rename_i hother
    rw [htenant, hother, hsame]
  · exact hsame other

theorem SameRecords.recordedPort (hsame : SameRecords w v) (slug : String) :
    recordedPort v slug = recordedPort w slug := by
  simp only [Provisioner.recordedPort, hsame slug]

def replacesRecord : HostOp → Bool
  | .replaceDeployment _ _ => true
  | _ => false

theorem SameRecords.exec {answers : Answers} (ho : replacesRecord o = false)
    (hsame : SameRecords w v) : SameRecords w (exec v answers o).2 := by
  cases o with
  | replaceDeployment slug document => cases ho
  | makeTenantDir slug => exact hsame.setTenant rfl
  | createEnv slug => exact hsame.setTenant rfl
  | writeEnv slug c => exact hsame.setTenant rfl
  | replaceEnv slug text => exact hsame.setTenant rfl
  | _ => exact hsame

abbrev Steady {α : Type} (w : World) (t : Agent α) : Prop :=
  Keeps (counting exec fun _ => SameRecords w) (fun k => SameRecords w k.2) (fun k _ => SameRecords w k.2) t

theorem steady_op (ho : replacesRecord o = false) : Steady w (ask o : Agent _) := by
  refine keeps_ask (fun _ hk => hk) ?_
  rintro k answer k' hk ⟨choice, rfl, rfl⟩
  exact hk.exec ho

theorem steady_createSecretEnv (rt : Runtime) (plan : Json) :
    Steady w (createSecretEnv rt config plan) :=
  (steady_op rfl).bind fun _ => (steady_op rfl).bind fun _ => (steady_op rfl).bind fun _ =>
    (steady_op rfl).bind fun _ => (steady_op rfl).bind fun _ => .pure

theorem steady_writeChars (text : List Char) : Steady w (writeChars slug text) := by
  induction text with
  | nil => exact .pure
  | cons c text ih => exact (steady_op rfl).bind fun _ => ih

theorem steady_writeOnce (text : List Char) : Steady w (writeOnce slug text) := by
  refine (steady_op rfl).bind fun env => ?_
  cases env with
  | some _ => exact .pure
  | none => exact (steady_op rfl).bind fun _ => steady_writeChars text

theorem steady_convergeSecretEnv (plan : Json) :
    Steady w (convergeSecretEnv slug plan) := by
  refine (steady_op rfl).bind fun env => ?_
  cases env with
  | none => exact keeps_throw fun _ hk => hk
  | some text =>
    have hensure : ∀ {c : Prop} [Decidable c] {e : Exn}, Steady w (ensure c e : Agent Unit) :=
      keeps_ensure fun _ hk _ => hk
    refine hensure.bind fun _ => (steady_op rfl).bind fun env => ?_
    cases env with
    | none => exact keeps_throw fun _ hk => hk
    | some text =>
      dsimp only
      split
      · exact steady_op rfl
      · exact .pure

theorem steady_ensureSecret {key : String} {expected : List Char} {unreadable mismatch : ProvisionError} :
    Steady w (ensureSecret slug key expected unreadable mismatch) := by
  refine (steady_op rfl).bind fun env => ?_
  cases env with
  | none => exact keeps_throw fun _ hk => hk
  | some text =>
    dsimp only
    cases valuesOf key text with
    | nil => exact steady_op rfl
    | cons _ _ => exact keeps_ensure fun _ hk _ => hk

theorem steady_ensureAreaManagementSecret (rt : Runtime) (plan : Json) :
    Steady w (ensureAreaManagementSecret rt config slug plan) := by
  unfold ensureAreaManagementSecret
  split
  · exact .pure
  · exact steady_ensureSecret

theorem steady_ensureManagementSecret (rt : Runtime) (plan : Json) :
    Steady w (ensureManagementSecret rt config slug plan) := by
  unfold ensureManagementSecret
  split
  · exact .pure
  · exact steady_ensureSecret

variable {plan : Json} {port : Nat}

theorem apiPort_recordPlan {document : Json} (hobject : isObject document = true) :
    apiPort (recordPlan plan port document) = .ok (some (port : Int)) := by
  cases document with
  | obj members =>
    have hget : (recordPlan plan port (.obj members)).get "apiPort" = some (.num port) := by
      unfold recordPlan
      rw [Json.get_set_of_ne (by decide), Json.get_set_of_ne (by decide)]
      exact Json.lookup_setMember_self _ _ _
    have hrecord : ∃ written, recordPlan plan port (.obj members) = .obj written := ⟨_, rfl⟩
    obtain ⟨written, hwritten⟩ := hrecord
    rw [hwritten] at hget ⊢
    simp [apiPort, item, hget, pythonInt]
  | _ => cases hobject

structure Recorded (config : Config) (plan : Json) (w v : World) (port : Nat) : Prop where
  chosen : Chosen config (slugOf plan) w port
  readable : Readable w (slugOf plan)
  written : (v.tenant (slugOf plan)).deployment =
    some (recordPlan plan port ((w.tenant (slugOf plan)).deployment.getD (.obj [])))
  others : ∀ other, other ≠ slugOf plan → (v.tenant other).deployment = (w.tenant other).deployment

theorem Recorded.own (hrecorded : Recorded config plan w v port) :
    recordedPort v (slugOf plan) = some (port : Int) := by
  have hobject : isObject ((w.tenant (slugOf plan)).deployment.getD (.obj [])) = true := by
    cases hdocument : (w.tenant (slugOf plan)).deployment with
    | none => rfl
    | some document => exact hrecorded.readable document hdocument
  exact recordedPort_eq hrecorded.written (apiPort_recordPlan hobject)

theorem Recorded.port_of_ne {other : String} (hrecorded : Recorded config plan w v port)
    (hne : other ≠ slugOf plan) : recordedPort v other = recordedPort w other := by
  simp only [recordedPort, hrecorded.others other hne]

theorem Chosen.of_sameRecords (hsame : SameRecords w v) (hchosen : Chosen config slug v port) :
    Chosen config slug w port where
  inRange := hchosen.inRange
  own value hvalue := hchosen.own value (by rwa [hsame.recordedPort])
  others other hne := by
    rw [← hsame.recordedPort]
    exact hchosen.others other hne

theorem meets_prepareFiles_records (rt : Runtime) (plan : Json) (n : Nat) :
    Meets (counting exec fun _ => SameRecords w) (prepareFiles rt config plan) (n, w)
      (fun k port => Recorded config plan w k.2 port) (fun k _ => SameRecords w k.2) := by
  have hw : SameRecords w w := fun _ => rfl
  have hmade : SameRecords w (w.setTenant (slugOf plan) (w.tenant (slugOf plan))) := hw.setTenant rfl
  refine .bind (meets_ensure.mpr ⟨fun _ => ?_, fun _ => hw⟩)
  refine .ask_bind hw fun _ => ?_
  refine .bind (meets_choosePort (fun _ => hmade) (fun port hchoosable hchosen n => ?_)
    (fun _ _ _ => hmade) _)
  have hreadable : Readable w (slugOf plan) := by
    intro document hdocument
    exact hchoosable.readable _ document (by rwa [hmade])
  refine (steady_createSecretEnv rt plan).meets_bind hmade fun content k hv => ?_
  refine (steady_writeOnce content).meets_bind hv fun _ k hv => ?_
  refine (steady_convergeSecretEnv plan).meets_bind hv fun _ k hv => ?_
  refine (steady_ensureAreaManagementSecret rt plan).meets_bind hv fun _ k hv => ?_
  refine (steady_ensureManagementSecret rt plan).meets_bind hv fun _ k hv => ?_
  refine (keeps_require fun _ _ hk _ => hk).meets_bind hv fun values k hv => ?_
  refine (steady_op rfl).meets_bind hv fun _ k hv => ?_
  refine (steady_op rfl).meets_bind hv fun _ k hv => ?_
  refine .ask_bind hv fun _ => ?_
  refine .ask_bind hv fun _ => .pure ?_
  refine ⟨hchosen.of_sameRecords hmade, hreadable, ?_, fun other hne => ?_⟩
  · refine (congrArg (·.deployment) (tenant_setTenant_self ..)).trans ?_
    rw [← hv]
    rfl
  · refine (congrArg (·.deployment) (tenant_setTenant ..)).trans ?_
    rw [if_neg hne]
    exact hv other

end Records

def DistinctPorts (w : World) : Prop :=
  ∀ slug other port, recordedPort w slug = some port → recordedPort w other = some port → slug = other

/-- A run of `prepare_files` under the allocation lock: the settings it ran with and the host before and
after it. -/
structure Preparation where
  config : Config
  plan : Json
  before : World
  after : World

namespace Preparation

/-- It may have come to its end, or have been killed after any of its operations. Who listens on the
ports is up to the host. -/
def Performed (rt : Runtime) (p : Preparation) : Prop :=
  ∃ inUse n rest, Proc.Reached exec { p.before with inUse } (prepareFiles rt p.config p.plan).run n p.after
    rest

theorem Performed.records {rt : Runtime} {p : Preparation} (hp : p.Performed rt) :
    SameRecords p.before p.after ∨ ∃ port, Recorded p.config p.plan p.before p.after port := by
  obtain ⟨inUse, n, rest, hreached⟩ := hp
  rcases reached_cases (meets_prepareFiles_records rt p.plan 0) hreached with
    hsame | ⟨port, _, hrecorded⟩ | ⟨_, _, hsame⟩
  · exact .inl hsame
  · exact .inr ⟨port, ⟨hrecorded.chosen.inRange, hrecorded.chosen.own, hrecorded.chosen.others⟩,
      hrecorded.readable, hrecorded.written, hrecorded.others⟩
  · exact .inl hsame

variable {rt : Runtime} {p : Preparation} {slug : String} {port : Int}

theorem Performed.distinctPorts (hp : p.Performed rt) (hbefore : DistinctPorts p.before) :
    DistinctPorts p.after := by
  intro slug other port hslug hother
  rcases hp.records with hsame | ⟨chosen, hrecorded⟩
  · rw [hsame.recordedPort] at hslug hother
    exact hbefore slug other port hslug hother
  · by_cases hown : slug = slugOf p.plan <;> by_cases hown' : other = slugOf p.plan
    · rw [hown, hown']
    · -- the port is the chosen one, which nobody else has recorded
      rw [hown, hrecorded.own] at hslug
      rw [hrecorded.port_of_ne hown', ← hslug] at hother
      exact absurd hother (hrecorded.chosen.others other hown')
    · rw [hown', hrecorded.own] at hother
      rw [hrecorded.port_of_ne hown, ← hother] at hslug
      exact absurd hslug (hrecorded.chosen.others slug hown)
    · rw [hrecorded.port_of_ne hown] at hslug
      rw [hrecorded.port_of_ne hown'] at hother
      exact hbefore slug other port hslug hother

theorem Performed.inRange (hp : p.Performed rt) (hafter : recordedPort p.after slug = some port)
    (hbefore : recordedPort p.before slug ≠ some port) : InRange p.config port := by
  rcases hp.records with hsame | ⟨chosen, hrecorded⟩
  · rw [hsame.recordedPort] at hafter
    exact absurd hafter hbefore
  · by_cases hown : slug = slugOf p.plan
    · rw [hown, hrecorded.own] at hafter
      cases hafter
      exact hrecorded.chosen.inRange
    · rw [hrecorded.port_of_ne hown] at hafter
      exact absurd hafter hbefore

theorem Performed.kept (hp : p.Performed rt) (hbefore : recordedPort p.before slug = some port)
    (hrange : InRange p.config port) : recordedPort p.after slug = some port := by
  rcases hp.records with hsame | ⟨chosen, hrecorded⟩
  · rwa [hsame.recordedPort]
  · by_cases hown : slug = slugOf p.plan
    · subst hown
      rw [hrecorded.own, hrecorded.chosen.own port hbefore hrange]
    · rwa [hrecorded.port_of_ne hown]

end Preparation

/-- Preparations on one root, one after the other, each with settings of its own. -/
inductive Preparations (rt : Runtime) : World → List Preparation → World → Prop
  | start {w : World} : Preparations rt w [] w
  | next {w : World} {ps : List Preparation} {p : Preparation} (hps : Preparations rt w ps p.before)
      (hp : p.Performed rt) : Preparations rt w (ps ++ [p]) p.after

theorem Preparations.distinctPorts {rt : Runtime} {w v : World} {ps : List Preparation}
    (hruns : Preparations rt w ps v) (hw : DistinctPorts w) :
    DistinctPorts v ∧ ∀ p ∈ ps, p.Performed rt ∧ DistinctPorts p.before := by
  induction hruns with
  | start => exact ⟨hw, by simp⟩
  | next _ hp ih =>
    refine ⟨hp.distinctPorts ih.1, forall_mem_append.mpr ⟨ih.2, ?_⟩⟩
    exact forall_mem_singleton.mpr ⟨hp, ih.1⟩

/-- However preparations are killed, every world between them has distinct ports, a new one is in
the range of the run that chose it, and a port in the range of a run is still there after it. -/
theorem preparations_allocate_ports {rt : Runtime} {w v : World} {ps : List Preparation}
    (hruns : Preparations rt w ps v) (hw : DistinctPorts w) :
    DistinctPorts v ∧ ∀ p ∈ ps, DistinctPorts p.before ∧ DistinctPorts p.after ∧
      ∀ slug port,
        (recordedPort p.after slug = some port → recordedPort p.before slug ≠ some port →
          InRange p.config port) ∧
        (recordedPort p.before slug = some port → InRange p.config port →
          recordedPort p.after slug = some port) := by
  have hdistinct := hruns.distinctPorts hw
  refine ⟨hdistinct.1, fun p hmem => ?_⟩
  have hp := hdistinct.2 p hmem
  refine ⟨hp.2, hp.1.distinctPorts hp.2, fun slug port => ⟨hp.1.inRange, hp.1.kept⟩⟩

def plainRuntime : Runtime where
  lower := List.map Char.toLower
  lower_ascii _ _ := rfl
  checkNetloc _ := true
  checkNetloc_ascii _ _ := rfl
  checkBracketedHost _ := false
  hexdigest _ _ := ['0']
  hexdigest_hex _ _ := by decide
  loads _ := .error .jsonDecodeError
  str _ := ""
  isdigit _ := false
  int _ := none
  isGlobal _ := false

def plainConfig : Config where
  portStart := 18100
  portEnd := 18199
  ports := by decide

def planOf (slug : String) : Json :=
  .obj [("tenantSlug", .str slug), ("placement", .str "dedicated"), ("desiredVersion", .str "sha-0")]

def emptyHost : World := { tenants := ∅, inUse := fun _ => false }

def plainToken : Token where
  text := ['x']
  ne_nil := by decide
  urlsafe := by decide

def plainAnswers : Answers
  | .makeTenantDir _ => ()
  | .globDeployments => []
  | .readDeployment _ => none
  | .replaceDeployment _ _ => ()
  | .readEnv _ => none
  | .createEnv _ => ()
  | .writeEnv _ _ => ()
  | .replaceEnv _ _ => ()
  | .replaceTenantEnv _ _ => ()
  | .replaceBootstrap _ _ => ()
  | .replaceCompose _ _ _ _ => ()
  | .portInUse _ => false
  | .tokenUrlsafe _ => plainToken
  | .beforeDeadline => true
  | .runBounded _ => .exited 0 []
  | .subprocessRun _ => .exited 0 []
  | .leaseLost => none
  | .probeReady _ => .ok 200
  | .api _ => .body (.ok .null)
  | .netlify _ _ => .ok .null
  | .gethostbyname _ => .ok ""
  | .outboundAddress => none
  | .edgeScriptExists => false
  | .verifyTenant _ => ()

def preparedOn (w : World) (slug : String) : World :=
  (finish exec plainAnswers (prepareFiles plainRuntime plainConfig (planOf slug)) w).1

def preparationOn (w : World) (slug : String) : Preparation :=
  ⟨plainConfig, planOf slug, w, preparedOn w slug⟩

theorem preparationOn_performed (w : World) (slug : String) :
    (preparationOn w slug).Performed plainRuntime := by
  have hcompletes : (prepareFiles plainRuntime plainConfig (planOf slug)).run.Completes exec w _ _ :=
    Proc.completes_finish plainAnswers
  obtain ⟨n, hreached⟩ := hcompletes
  exact ⟨w.inUse, n, _, hreached⟩

theorem preparations_two (w : World) (one two : String) :
    Preparations plainRuntime w [preparationOn w one, preparationOn (preparedOn w one) two]
      (preparedOn (preparedOn w one) two) :=
  have hone : Preparations plainRuntime w [preparationOn w one] (preparedOn w one) :=
    .next .start (preparationOn_performed w one)
  .next hone (preparationOn_performed (preparedOn w one) two)

theorem preparations_allocate_ports_two :
    recordedPort (preparedOn (preparedOn emptyHost "one") "two") "one" = some 18100 ∧
      recordedPort (preparedOn (preparedOn emptyHost "one") "two") "two" = some 18101 ∧
      DistinctPorts (preparedOn (preparedOn emptyHost "one") "two") := by
  have hempty : DistinctPorts emptyHost := fun _ _ _ hport => by cases hport
  have hports : recordedPort (preparedOn (preparedOn emptyHost "one") "two") "one" = some 18100 ∧
      recordedPort (preparedOn (preparedOn emptyHost "one") "two") "two" = some 18101 := by
    decide +kernel
  exact ⟨hports.1, hports.2,
    (preparations_allocate_ports (preparations_two emptyHost "one" "two") hempty).1⟩

end ControlPlane.Provisioner
