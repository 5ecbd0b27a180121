import ControlPlane.Proof.Plans
import ControlPlane.Provisioner.Agent

/-!
# What the agent throws

Only a check of the lease throws an error that speaks of the lease, and only if it has seen a
refusal; nothing follows then.
-/

namespace ControlPlane.Provisioner

open Interleave Interleave.Task List
open Python (Exc)

def OtherError (e : Exn) : Prop := ∀ p, e = .provision p → p.code ≠ "lease_lost"

theorem otherError_code {code detail : String} {terminal : Bool} (hcode : code ≠ "lease_lost") :
    OtherError (.provision ⟨code, detail, terminal⟩) := by
  rintro p ⟨⟩
  exact hcode

theorem otherError_foreign {name : String} : OtherError (.other name) := nofun

/-- A computation that does not speak of the lease where it fails. -/
def Raises {α : Type} (x : Except Exn α) : Prop := ∀ e, x = .error e → OtherError e

section Raises

variable {α β : Type} {e : Exn} {detail : String} {x : Except Exn α} {f : α → Except Exn β}

theorem Raises.ok {a : α} : Raises (.ok a) := nofun

theorem Raises.error (he : OtherError e) : Raises (.error e : Except Exn α) := by
  intro e' h
  cases h
  exact he

theorem Raises.code {code : String} {terminal : Bool} (hcode : code ≠ "lease_lost") :
    Raises (.error (.provision ⟨code, detail, terminal⟩) : Except Exn α) :=
  .error (otherError_code hcode)

theorem Raises.foreign {name : String} : Raises (.error (.other name) : Except Exn α) :=
  .error otherError_foreign

theorem Raises.bind (hx : Raises x) (hf : ∀ a, Raises (f a)) : Raises (x >>= f) := by
  cases x with
  | ok a => exact hf a
  | error e => exact .error (hx e rfl)

theorem Raises.error_bind (he : OtherError e) : Raises (Except.error e >>= f) := .error he

theorem Raises.ite {c : Prop} [Decidable c] {y : Except Exn α} (hx : Raises x) (hy : Raises y) :
    Raises (if c then x else y) := by
  split_ifs
  · exact hx
  · exact hy

theorem Raises.optional {c : Prop} [Decidable c] {x : Except Exn Unit} {f : Unit → Except Exn β}
    (hx : Raises x) (hf : ∀ u, Raises (f u)) : Raises (if c then f () else x >>= f) :=
  (hf ()).ite (hx.bind hf)

theorem Raises.invalidPlan : Raises (.error (invalidPlan detail) : Except Exn α) :=
  .code (by decide)

theorem Raises.check {passes : Bool} : Raises (check passes detail) :=
  .ite .ok .invalidPlan

theorem Raises.matching {pattern : RegularExpression Char} {value : Json} :
    Raises (matching pattern detail value) := by
  cases value with
  | str s => exact .ite .ok .invalidPlan
  | _ => exact .invalidPlan

theorem Raises.inSet {words : List String} {value : Json} : Raises (inSet words value) := by
  cases value with
  | arr | obj => exact .foreign
  | _ => exact .ok

theorem raises_checkPalette (palette : Json) : Raises (checkPalette palette) := by
  refine .bind .check fun _ => ?_
  cases palette with
  | obj members => exact .check
  | _ => exact .ok

theorem raises_checkMember (py : Python.Runtime) (seenEmails : List (List Char)) (member : Json) :
    Raises (checkMember py seenEmails member) :=
  .bind .check fun _ => .bind .check fun _ => .bind .check fun _ =>
    .bind .check fun _ => .bind .check fun _ => .bind .check fun _ => .ok

theorem raises_checkMembersFrom (py : Python.Runtime) (seenEmails : List (List Char))
    (members : List Json) : Raises (checkMembersFrom py seenEmails members) := by
  induction members generalizing seenEmails with
  | nil => exact .ok
  | cons member members ih => exact (raises_checkMember py seenEmails member).bind fun email => ih _

theorem raises_checkMembers (py : Python.Runtime) (members : Json) : Raises (checkMembers py members) := by
  cases members with
  | null => exact .ok
  | arr members => exact .bind .check fun _ => raises_checkMembersFrom py [] members
  | _ => exact .invalidPlan

theorem raises_checkProviderKeys (providerKeys : Json) : Raises (checkProviderKeys providerKeys) := by
  cases providerKeys with
  | null => exact .ok
  | obj members =>
    induction members with
    | nil => exact .ok
    | cons member members ih => exact .bind .check fun _ => ih
  | _ => exact .invalidPlan

theorem raises_checkProfile (country : String) (profile : Json) :
    Raises (checkProfile country profile) := by
  refine .bind .check fun _ => .bind .check fun _ => ?_
  refine .bind .inSet fun region => ?_
  refine (fun hrest => .ite (.bind .inSet hrest) (hrest false)) fun dataRegion => ?_
  refine .bind .check fun _ => .bind .check fun _ => ?_
  refine .bind .check fun _ => .bind .check fun _ => ?_
  refine .bind .inSet fun dateFormat => .bind .check fun _ => ?_
  exact .bind .inSet fun numberFormat => .check

theorem raises_checkPlacement (slug tenantId : String) (plan : Json) :
    Raises (checkPlacement slug tenantId plan) := by
  unfold checkPlacement
  split
  · exact .bind .check fun _ => .ok
  · refine .bind .check fun _ => .bind .check fun _ => ?_
    refine .bind .check fun _ => .bind .matching fun database => ?_
    exact .bind .check fun _ => .ok
  · exact .invalidPlan

theorem raises_safePlan (py : Python.Runtime) (job : Json) : Raises (safePlan py job) := by
  refine .bind .check fun _ => .bind .check fun _ => ?_
  refine .bind .matching fun tenantId => .bind .matching fun slug => ?_
  refine .bind .check fun _ => .bind .check fun _ => ?_
  refine .bind .matching fun country => .bind .matching fun desired => ?_
  refine .bind .check fun _ => .bind .check fun _ => ?_
  refine .bind .check fun _ => ?_
  dsimp only
  split
  · refine .bind .check fun _ => (raises_checkPalette _).optional fun _ => ?_
    refine (raises_checkMembers _ _).bind fun _ => (raises_checkProviderKeys _).bind fun _ => ?_
    refine (raises_checkProfile _ _).optional fun _ => ?_
    exact .ite ((raises_checkPlacement _ _ _).bind fun placement => .ok) .ok
  · exact .error_bind (otherError_code (by decide))

variable (rt : Runtime) (config : Config)

theorem raises_checkRegion (plan : Json) : Raises (checkRegion config plan) :=
  .ite (.ite .ok (.code (by decide))) .ok

theorem raises_apiPort (document : Json) : Raises (apiPort document) := by
  cases document with
  | obj members => exact .ok
  | _ => exact .foreign

theorem raises_membersAs (names : List (String × String)) (document : Json) :
    Raises (membersAs names document) := by
  have hmember (name : String) : Raises (member name document) := by
    unfold member
    split
    · exact .ok
    · exact .foreign
  unfold membersAs
  induction names with
  | nil => exact .ok
  | cons entry names ih =>
    rw [mapM_cons]
    exact .bind (.bind (hmember _) fun _ => .ok) fun _ => .bind ih fun _ => .ok

theorem raises_createRuntimeEnv (plan : Json) : Raises (createRuntimeEnv plan) := by
  unfold createRuntimeEnv
  dsimp only
  split
  · refine .bind (raises_membersAs _ _) fun profile => ?_
    split
    · exact .bind (raises_membersAs _ _) fun palette => .ok
    · exact .ok
  · refine .bind .ok fun profile => ?_
    split
    · exact .bind (raises_membersAs _ _) fun palette => .ok
    · exact .ok

theorem raises_apiException (e : Exc) : Raises (.error (apiException e) : Except Exn α) := by
  refine .error ?_
  unfold apiException
  split_ifs
  · exact otherError_code (by decide)
  · exact otherError_foreign

theorem raises_apiResult (fetched : Fetched) : Raises (apiResult rt fetched) := by
  rcases fetched with e | _ | (e | value) | ⟨code, e | loaded⟩
  · exact raises_apiException e
  · exact .code (by decide)
  · exact raises_apiException e
  · exact .ok
  · exact .foreign
  · exact .code (by decide)

theorem raises_inspected (image : String) (raw : List Char) : Raises (inspected rt image raw) := by
  have hlines (lines : List (List Char)) : Raises (firstObject rt lines) := by
    induction lines with
    | nil => exact .ok
    | cons line lines ih =>
      refine .ite ?_ ih
      split
      · exact .ok
      · exact ih
      · exact ih
      · exact .foreign
  refine (hlines _).bind fun found => ?_
  cases found with
  | some metadata => exact .ok
  | none => exact .code (by decide)

theorem raises_pinnedReference (image expectedSha : String) (metadata : Json) :
    Raises (pinnedReference image expectedSha metadata) := by
  have hdigests : Raises (repoDigests metadata) := by
    unfold repoDigests
    split
    all_goals first | exact .ok | exact .foreign
  unfold pinnedReference
  split
  · refine .ite ?_ (.error_bind (otherError_code (by decide)))
    refine .bind .ok fun revision => .ite (.error_bind (otherError_code (by decide))) ?_
    refine hdigests.bind fun digests => ?_
    split
    · exact .code (by decide)
    · exact .ok
    · exact .code (by decide)
  · exact .error_bind (otherError_code (by decide))

theorem raises_extractHostname (url : String) : Raises (extractHostname rt url) :=
  .ite .invalidPlan .ok

theorem Raises.listed {name : String} {data : Json} : Raises (listed name data) := by
  cases data with
  | arr | obj => exact .ok
  | _ => exact .foreign

theorem Raises.getOf {name : String} {value : Json} : Raises (getOf name value) := by
  cases value with
  | obj members => exact .ok
  | _ => exact .foreign

theorem raises_zoneIdOf (data : Json) : Raises (zoneIdOf config data) := by
  have hfirst (zones : Json) : Raises (firstOf zones) := by
    unfold firstOf
    split
    all_goals first | exact .ok | exact .foreign
  refine .bind .listed fun zones => ?_
  refine .ite (.error_bind (otherError_code (by decide))) ?_
  refine (hfirst _).bind fun zone => .bind .getOf fun id => ?_
  refine .bind .getOf fun zoneId => ?_
  exact .ite (.error_bind (otherError_code (by decide))) .ok

theorem raises_existingRecords (hostname : String) (data : Json) :
    Raises (existingRecords hostname data) := by
  have hitems (value : Json) : Raises (iterated value) := by
    cases value with
    | arr | obj | str => exact .ok
    | _ => exact .foreign
  refine .bind .listed fun records => (hitems _).bind fun items => ?_
  induction items with
  | nil => exact .ok
  | cons item items ih =>
    rw [filterMapM_cons]
    refine .bind ?_ fun found => ?_
    · exact .bind .getOf fun name => .bind .getOf fun kind => .ok
    · cases found with
      | none => exact ih
      | some b => exact ih.bind fun bs => .ok

theorem raises_recordResult (plan metadata : Json) (workspaceId schemaVersion : List Char)
    (deployedSha jobId : String) :
    Raises (recordResult rt config plan metadata workspaceId schemaVersion deployedSha jobId) := by
  unfold recordResult
  cases rt.int schemaVersion with
  | some version => exact .bind .ok fun _ => .bind .getOf fun dataRegion => .ok
  | none => exact .error_bind otherError_foreign

theorem raises_verifyReleaseDigestStability (deployment : Json) (desired key resolved : String) :
    Raises (verifyReleaseDigestStability deployment desired key resolved) := by
  unfold verifyReleaseDigestStability
  split_ifs
  · exact .ok
  · split
    · exact .ite (.code (by decide)) .ok
    · exact .ok

end Raises

def looks : HostOp → Bool
  | .leaseLost => true
  | _ => false

def latchedBy : (step : (o : HostOp) × o.Result) → Option ProvisionError
  | ⟨.leaseLost, answer⟩ => answer
  | _ => none

/-- No look at the lease has brought a refusal so far. -/
def Held (past : Trace HostOp HostOp.Result) : Prop := ∀ step ∈ past, latchedBy step = none

/-- A refusal that was seen is the last thing that happens. -/
abbrev stopping : Contract HostOp HostOp.Result (World × Trace HostOp HostOp.Result) :=
  recording exec (fun past _ => Held past) fun _ _ => True

/-- An error speaks of the lease exactly if a refusal was seen. -/
def Blamed (k : World × Trace HostOp HostOp.Result) (e : Exn) : Prop :=
  (∀ step ∈ k.2, ∀ lost, latchedBy step = some lost → e = leaseLostError lost) ∧
    (Held k.2 → OtherError e)

/-- A part of the deployment that does not look at the lease. -/
abbrev Sound {α : Type} (t : Agent α) : Prop :=
  Keeps stopping (fun k => Held k.2) (fun k e => Held k.2 ∧ OtherError e) t

abbrev Stops {α : Type} (t : Agent α) : Prop := Keeps stopping (fun k => Held k.2) Blamed t

theorem Held.append {past : Trace HostOp HostOp.Result} {step : (o : HostOp) × o.Result}
    (hpast : Held past) (hstep : latchedBy step = none) : Held (past ++ [step]) :=
  forall_mem_append.mpr ⟨hpast, forall_mem_singleton.mpr hstep⟩

section Sound

variable {α : Type} {rt : Runtime} {config : Config} {plan : Json} {slug project : String} {e : Exn}
  {timeout : Nat} {errorCode : String} {args : List String} {image sql key : String} {port : Nat}
  {jobId token deployedSha desired : String}

theorem sound_throw (he : OtherError e) : Sound (throw e : Agent α) :=
  keeps_throw fun _ hk => ⟨hk, he⟩

theorem sound_require {x : Except Exn α} (hx : Raises x) : Sound (require x : Agent α) :=
  keeps_require fun _ e hk he => ⟨hk, hx e he⟩

theorem sound_code {code detail : String} {terminal : Bool} (hcode : code ≠ "lease_lost") :
    Sound (throw (.provision ⟨code, detail, terminal⟩) : Agent α) :=
  sound_throw (otherError_code hcode)

theorem sound_ensure {condition : Prop} [Decidable condition] (he : OtherError e) :
    Sound (ensure condition e : Agent Unit) :=
  keeps_ensure fun _ hk _ => ⟨hk, he⟩

theorem sound_ask {o : HostOp} (ho : looks o = false) : Sound (ask o : Agent _) := by
  refine keeps_ask (fun _ hk => hk) ?_
  rintro k answer _ hk ⟨_, choice, _, rfl⟩
  refine hk.append ?_
  cases o with
  | leaseLost => cases ho
  | _ => rfl

theorem Sound.stops {t : Agent α} (ht : Sound t) : Stops t := by
  refine ht.mono fun k e h => ⟨fun step hstep lost hlatched => ?_, fun _ => h.2⟩
  rw [h.1 step hstep] at hlatched
  cases hlatched

theorem stops_checkLease : Stops checkLease := by
  intro k hk
  refine .bind (meets_ask.mpr ⟨hk, ?_⟩)
  rintro latched _ ⟨_, choice, _, rfl⟩
  cases latched with
  | none => exact .pure (hk.append rfl)
  | some lost =>
    refine meets_throw.mpr ⟨fun step hstep lost' hlatched => ?_, fun hheld => ?_⟩
    · rcases mem_append.mp hstep with hstep | hstep
      · rw [hk step hstep] at hlatched
        cases hlatched
      · rw [mem_singleton.mp hstep] at hlatched
        cases hlatched
        rfl
    · have hlast := hheld ⟨.leaseLost, some lost⟩ (by simp)
      cases hlast

theorem sound_api (method path : String) (payload : Json) : Sound (api rt method path payload) :=
  .bind (sound_ask rfl) fun fetched => sound_require (raises_apiResult rt fetched)

theorem sound_runBounded {command : List String} (hcode : errorCode ≠ "lease_lost") :
    Sound (runBounded command timeout errorCode) := by
  refine (sound_ensure otherError_foreign).bind fun _ => .bind (sound_ask rfl) fun ran => ?_
  rcases ran with exception | (_ | _) | ⟨returncode, output⟩
  · exact sound_code hcode
  · exact sound_throw otherError_foreign
  · exact sound_code hcode
  · exact .pure

theorem sound_dockerCmd {terminal : Bool} (hcode : errorCode ≠ "lease_lost") :
    Sound (dockerCmd config args timeout errorCode terminal) :=
  (sound_runBounded hcode).bind fun _ => (sound_ensure (otherError_code hcode)).bind fun _ => .pure

theorem sound_composeCmd : Sound (composeCmd config slug project args timeout) := by
  refine (sound_runBounded (by decide)).bind fun _ => ?_
  exact (sound_ensure (otherError_code (by decide))).bind fun _ => .pure

theorem sound_pinnedImageReference {expectedSha : String} :
    Sound (pinnedImageReference rt config image expectedSha) := by
  have hinspect : Sound (inspectImage rt config image) :=
    (sound_dockerCmd (by decide)).bind fun raw => sound_require (raises_inspected rt image raw)
  refine (sound_dockerCmd (by decide)).bind fun _ => hinspect.bind fun metadata => ?_
  exact sound_require (raises_pinnedReference _ _ _)

theorem sound_waitHttpFor (port rounds : Nat) (last : String) : Sound (waitHttpFor port rounds last) := by
  induction rounds generalizing last with
  | zero => exact sound_code (by decide)
  | succ rounds ih =>
    refine .bind (sound_ask rfl) fun before => ?_
    refine .ite (fun _ => .bind (sound_ask rfl) fun probed => ?_) fun _ =>
      sound_code (by decide)
    cases probed with
    | error exception => exact ih exception
    | ok status => exact .ite (fun _ => .pure) fun _ => ih _

theorem sound_containerHealth {service : String} :
    Sound (containerHealth config slug project service) := by
  refine sound_composeCmd.bind fun containerId => .ite (fun _ => .pure) fun _ => ?_
  exact (sound_dockerCmd (by decide)).bind fun health => .pure

theorem sound_waitContainerHealthyFor (rounds : Nat) (last : List Char) :
    Sound (waitContainerHealthyFor config slug project "worker" rounds last) := by
  have htimeout (last : List Char) : Sound (throw (readinessTimeout "worker" last) : Agent Unit) :=
    sound_code (by decide)
  induction rounds generalizing last with
  | zero => exact htimeout last
  | succ rounds ih =>
    refine .bind (sound_ask rfl) fun before => .ite (fun _ => ?_) fun _ => htimeout last
    refine sound_containerHealth.outcome_bind (fun health => ?_) fun e he => ?_
    · cases health with
      | none => exact ih last
      | some health =>
        refine .ite (fun _ => .pure) fun _ => ?_
        exact .ite (fun _ => htimeout _) fun _ => ih _
    · cases e with
      | provision p => exact ih p.code.toList
      | other exception => exact sound_throw he

theorem sound_queryPostgres : Sound (queryPostgres config plan sql) := by
  unfold queryPostgres
  split_ifs
  · exact (sound_dockerCmd (by decide)).bind fun output => .pure
  · exact sound_composeCmd.bind fun output => .pure

theorem sound_clusterPsql {cluster : String} : Sound (clusterPsql config cluster sql) :=
  (sound_dockerCmd (by decide)).bind fun _ => .pure

theorem sound_ensureSharedDatabase : Sound (ensureSharedDatabase config plan) := by
  refine (sound_ensure (otherError_code (by decide))).bind fun _ => ?_
  refine (sound_dockerCmd (by decide)).bind fun _ => (sound_dockerCmd (by decide)).bind fun _ => ?_
  refine .bind (sound_ask rfl) fun env => (sound_ensure (otherError_code (by decide))).bind fun _ => ?_
  refine sound_clusterPsql.bind fun role => .when (fun _ => sound_clusterPsql) ?_
  refine sound_clusterPsql.bind fun _ => sound_clusterPsql.bind fun found => ?_
  exact .when (fun _ => sound_clusterPsql) (sound_clusterPsql.bind fun _ => .pure)

theorem sound_subprocessRun (command : List String) : Sound (subprocessRun command) := by
  refine .bind (sound_ask rfl) fun captured => ?_
  cases captured with
  | exited returncode stderr => exact .pure
  | raised exception => exact sound_throw otherError_foreign

theorem sound_ensureEdgeNetwork : Sound (ensureEdgeNetwork config) := by
  refine .ite (fun _ => .pure) fun _ => ?_
  refine (sound_subprocessRun _).bind fun found => .ite (fun _ => .pure) fun _ => ?_
  exact (sound_subprocessRun _).bind fun created => sound_ensure (otherError_code (by decide))

theorem sound_hostPublicIp : Sound (hostPublicIp rt config) := by
  refine .ite (fun _ => .pure) fun _ => .bind (sound_ask rfl) fun address => ?_
  cases address with
  | none => exact sound_code (by decide)
  | some address => exact (sound_ensure (otherError_code (by decide))).bind fun _ => .pure

theorem sound_netlify (method path : String) : Sound (netlify method path) := by
  refine .bind (sound_ask rfl) fun answered => ?_
  cases answered with
  | ok document => exact .pure
  | error exception => exact sound_throw otherError_foreign

theorem sound_awaitPropagation (hostname instanceIp : String) (rounds : Nat) :
    Sound (awaitPropagation hostname instanceIp rounds) := by
  induction rounds with
  | zero => exact .pure
  | succ rounds ih =>
    refine .bind (sound_ask rfl) fun resolved => ?_
    cases resolved with
    | ok address => exact .ite (fun _ => .pure) fun _ => ih
    | error e => exact (sound_ensure otherError_foreign).bind fun _ => ih

theorem sound_autoConfigureDns (hostname instanceIp : String) :
    Sound (autoConfigureDns rt config hostname instanceIp) := by
  refine .ite (fun _ => .pure) fun _ => ?_
  refine (sound_netlify _ _).bind fun zones => (sound_require (raises_zoneIdOf _ _)).bind fun zoneId => ?_
  refine (sound_netlify _ _).bind fun data => ?_
  refine (sound_require (raises_existingRecords _ _)).bind fun records => ?_
  have hpropagation := sound_awaitPropagation hostname instanceIp 18
  cases records with
  | nil => exact (sound_netlify _ _).bind fun _ => hpropagation
  | cons record records =>
    refine (sound_require .getOf).bind fun recordId => .when (fun _ => sound_netlify _ _) ?_
    exact (sound_netlify _ _).bind fun _ => hpropagation

theorem sound_autoPublishEdgeRoute (hostname : String) (port : Nat) (tenantSlug : String) :
    Sound (autoPublishEdgeRoute config hostname port tenantSlug) := by
  refine .ite (fun _ => .pure) fun _ => .bind (sound_ask rfl) fun present => ?_
  refine .ite (fun _ => ?_) fun _ => .pure
  exact (sound_subprocessRun _).bind fun ran => sound_ensure (otherError_code (by decide))

theorem sound_automate (port : Nat) : Sound (automate rt config plan port) := by
  have hhostname (url : String) : Sound (require (extractHostname rt url) : Agent String) :=
    sound_require (raises_extractHostname rt url)
  refine (fun hedge => .ite (fun _ => (hhostname _).bind fun hostname =>
    sound_hostPublicIp.bind fun instanceIp =>
      (sound_autoConfigureDns hostname instanceIp).bind fun _ => hedge) fun _ => hedge) ?_
  refine (fun hverify => .ite (fun _ => (hhostname _).bind fun hostname =>
    (sound_autoPublishEdgeRoute hostname port (slugOf plan)).bind fun _ => hverify)
      fun _ => hverify) ?_
  exact .ite (fun _ => (hhostname _).bind fun hostname =>
    .ite (fun _ => sound_ask rfl) fun _ => .pure) fun _ => .pure

theorem sound_checkConflicts (port : Int) (others : List String) :
    Sound (checkConflicts slug port others) := by
  induction others with
  | nil => exact .pure
  | cons other others ih =>
    refine .ite (fun _ => .bind (sound_ask rfl) fun deployment => ?_) fun _ => ih
    cases deployment with
    | none => exact ih
    | some document =>
      refine (sound_require (raises_apiPort document)).bind fun recorded => ?_
      exact (sound_ensure (otherError_code (by decide))).bind fun _ => ih

theorem sound_allocatedPorts (slugs : List String) : Sound (allocatedPorts slugs) := by
  induction slugs with
  | nil => exact .pure
  | cons slug slugs ih =>
    refine .bind (sound_ask rfl) fun deployment => ?_
    cases deployment with
    | none => exact .bind .pure fun _ => ih.bind fun _ => .pure
    | some document =>
      exact (sound_require (raises_apiPort document)).bind fun _ => ih.bind fun _ => .pure

theorem sound_firstFree (reserved : List Int) (ports : List Nat) : Sound (firstFree reserved ports) := by
  induction ports with
  | nil => exact sound_code (by decide)
  | cons port ports ih =>
    refine .ite (fun _ => ih) fun _ => .bind (sound_ask rfl) fun inUse => ?_
    exact .ite (fun _ => ih) fun _ => .pure

theorem sound_choosePort : Sound (choosePort config slug) := by
  have hkept : Sound (keptPort config slug) := by
    refine .bind (sound_ask rfl) fun deployment => ?_
    cases deployment with
    | none => exact .pure
    | some document =>
      refine (sound_require (raises_apiPort document)).bind fun recorded => ?_
      cases recorded with
      | none => exact .pure
      | some value =>
        refine .ite (fun _ => .bind (sound_ask rfl) fun others => ?_) fun _ => .pure
        exact (sound_checkConflicts value others).bind fun _ => .pure
  refine hkept.bind fun kept => ?_
  cases kept with
  | some port => exact .pure
  | none =>
    refine .bind (sound_ask rfl) fun slugs => (sound_allocatedPorts slugs).bind fun reserved => ?_
    exact sound_firstFree reserved _

theorem sound_createSecretEnv : Sound (createSecretEnv rt config plan) :=
  .bind (sound_ask rfl) fun _ => .bind (sound_ask rfl) fun _ => .bind (sound_ask rfl) fun _ =>
    .bind (sound_ask rfl) fun _ => .bind (sound_ask rfl) fun _ => .pure

theorem sound_writeOnce (content : List Char) : Sound (writeOnce slug content) := by
  have hchars : Sound (writeChars slug content) := by
    induction content with
    | nil => exact .pure
    | cons c content ih => exact .bind (sound_ask rfl) fun _ => ih
  refine .bind (sound_ask rfl) fun env => ?_
  cases env with
  | some text => exact .pure
  | none => exact .bind (sound_ask rfl) fun _ => hchars

theorem sound_convergeSecretEnv : Sound (convergeSecretEnv slug plan) := by
  refine .bind (sound_ask rfl) fun env => ?_
  cases env with
  | none => exact sound_code (by decide)
  | some text =>
    refine (sound_ensure (otherError_code (by decide))).bind fun _ => .bind (sound_ask rfl) fun env => ?_
    cases env with
    | none => exact sound_throw otherError_foreign
    | some text => exact .ite (fun _ => sound_ask rfl) fun _ => .pure

theorem sound_ensureSecret {expected : List Char} {unreadable mismatch : ProvisionError}
    (hunreadable : unreadable.code ≠ "lease_lost") (hmismatch : mismatch.code ≠ "lease_lost") :
    Sound (ensureSecret slug key expected unreadable mismatch) := by
  refine .bind (sound_ask rfl) fun env => ?_
  cases env with
  | none => exact sound_code hunreadable
  | some text =>
    dsimp only
    cases valuesOf key text with
    | nil => exact sound_ask rfl
    | cons value values => exact sound_ensure (otherError_code hmismatch)

theorem sound_prepareFiles : Sound (prepareFiles rt config plan) := by
  refine (sound_ensure (otherError_code (by decide))).bind fun _ => .bind (sound_ask rfl) fun _ => ?_
  refine sound_choosePort.bind fun port => sound_createSecretEnv.bind fun content => ?_
  refine (sound_writeOnce content).bind fun _ => sound_convergeSecretEnv.bind fun _ => ?_
  have harea : Sound (ensureAreaManagementSecret rt config (slugOf plan) plan) :=
    .ite (fun _ => .pure) fun _ => sound_ensureSecret (by decide) (by decide)
  have hmanagement : Sound (ensureManagementSecret rt config (slugOf plan) plan) :=
    .ite (fun _ => .pure) fun _ => sound_ensureSecret (by decide) (by decide)
  refine harea.bind fun _ => hmanagement.bind fun _ => ?_
  refine (sound_require (raises_createRuntimeEnv plan)).bind fun values => ?_
  refine .bind (sound_ask rfl) fun _ => .bind (sound_ask rfl) fun _ => ?_
  exact .bind (sound_ask rfl) fun _ => .bind (sound_ask rfl) fun _ => .pure

theorem sound_finishClaim : Sound (finishClaim rt config plan port jobId token deployedSha) := by
  refine sound_queryPostgres.bind fun workspaceId => sound_queryPostgres.bind fun schemaVersion => ?_
  refine (sound_ensure (otherError_code (by decide))).bind fun _ => ?_
  refine (sound_ensure (otherError_code (by decide))).bind fun _ => .bind (sound_ask rfl) fun metadata => ?_
  cases metadata with
  | none => exact sound_throw otherError_foreign
  | some metadata =>
    refine (sound_require (raises_recordResult rt config _ _ _ _ _ _)).bind fun recorded => ?_
    refine .bind (sound_ask rfl) fun _ => (sound_automate port).bind fun _ => ?_
    exact (sound_api _ _ _).bind fun _ => .pure

theorem stops_pinRole {deployment : Json} :
    Stops (pinRole rt config plan desired deployedSha deployment image key) := by
  refine sound_pinnedImageReference.stops.bind fun resolved => ?_
  refine (sound_require (raises_verifyReleaseDigestStability _ _ _ _)).stops.bind fun _ => ?_
  exact stops_checkLease.bind fun _ => .pure

theorem stops_startStack (port : Nat) : Stops (startStack config plan port) := by
  refine sound_ensureEdgeNetwork.stops.bind fun _ => ?_
  refine (fun hrest => .ite (fun _ => sound_ensureSharedDatabase.stops.bind fun _ => hrest) fun _ =>
    sound_composeCmd.stops.bind fun _ => sound_composeCmd.stops.bind fun _ => hrest) ?_
  refine stops_checkLease.bind fun _ => sound_composeCmd.stops.bind fun _ => ?_
  refine sound_composeCmd.stops.bind fun _ => stops_checkLease.bind fun _ => ?_
  refine (sound_waitHttpFor port _ _).stops.bind fun _ => ?_
  refine (sound_waitContainerHealthyFor _ _).stops.bind fun _ => ?_
  exact (sound_waitHttpFor port _ _).stops.bind fun _ => stops_checkLease

theorem stops_deploy : Stops (deploy rt config plan port jobId token desired deployedSha) := by
  refine .bind (Sound.stops (sound_ask rfl)) fun deployment => stops_pinRole.bind fun api => ?_
  refine stops_pinRole.bind fun worker => .bind (Sound.stops (sound_ask rfl)) fun _ => ?_
  refine .bind (Sound.stops (sound_ask rfl)) fun _ => (stops_startStack port).bind fun _ => ?_
  exact sound_finishClaim.stops

theorem stops_processClaim (claim : Json) : Stops (processClaim rt config claim) := by
  unfold processClaim
  split
  · refine (sound_require (raises_safePlan _ _)).stops.bind fun plan => ?_
    refine (sound_require (raises_checkRegion config plan)).stops.bind fun _ => ?_
    exact sound_prepareFiles.stops.bind fun port => stops_deploy
  · exact (sound_code (by decide)).stops

end Sound

end ControlPlane.Provisioner
