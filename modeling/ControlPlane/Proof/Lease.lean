import ControlPlane.Proof.Agent
import ControlPlane.Proof.Preparation
import ControlPlane.Provisioner.Lease

/-!
# A lapsed lease

A deployment stops at a check exactly if the keeper has latched a refusal by then. It latches
neither passing failures nor the exceptions that end its thread, so a deployment can outlive its
lease.
-/

namespace ControlPlane.Provisioner

open Interleave Interleave.Task List

variable {rt : Runtime} {config : Config}

variable {claim : Json} {w : World} {trace : Trace HostOp HostOp.Result}
  {rest : Proc HostOp HostOp.Result (Except Exn Unit)} {v : World}

theorem processClaim_course
    (hcourse : Proc.Course exec w (processClaim rt config claim).run trace v rest) :
    (∀ before step after, trace = before ++ step :: after → Held before) ∧
      (Held trace ∨ ∃ e, rest = .ret (.error e)) ∧ ∀ e, rest = .ret (.error e) → Blamed (v, trace) e := by
  have hmeets : Meets stopping (processClaim rt config claim) (w, []) (fun k _ => Held k.2) Blamed :=
    stops_processClaim claim (w, []) (forall_mem_nil _)
  obtain ⟨hrest, hmay⟩ := hcourse.meets (fun _ _ => trivial)
    ((meets_run (R := fun k r => match r with | .ok _ => Held k.2 | .error e => Blamed k e)).mpr hmeets)
  refine ⟨hmay, ?_, ?_⟩
  · cases rest with
    | op o next => exact .inl hrest.1
    | ret r =>
      cases r with
      | ok a => exact .inl hrest
      | error e => exact .inr ⟨e, rfl⟩
  · rintro e rfl
    exact hrest

def Refusal (rt : Runtime) : Moment → Prop
  | .renewal fetched _ =>
    ∃ error, apiResult rt fetched = .error (.provision error) ∧ error.terminal = true
  | .step _ _ _ => False

/-- Nothing that ends the keeper's loop: renewed, or a failure that may pass. -/
def Passing (rt : Runtime) : Moment → Prop
  | .renewal fetched _ =>
    ∀ e, apiResult rt fetched = .error e → ∃ error, e = .provision error ∧ error.terminal = false
  | .step _ _ _ => True

/-- Of the renewals that did not pass, the first was a refusal. -/
def Refused (rt : Runtime) (past : List Moment) : Prop :=
  ∃ earlier moment later, past = earlier ++ moment :: later ∧ Refusal rt moment ∧
    ∀ m ∈ earlier, Passing rt m

variable {past : List Moment} {lease : Lease} {time : Nat} {answer : Option ProvisionError}
  {image reference name : String} {o : HostOp}

theorem refused_cons {moment : Moment} :
    Refused rt (moment :: past) ↔ Refusal rt moment ∨ Passing rt moment ∧ Refused rt past := by
  constructor
  · rintro ⟨earlier, refusal, later, hpast, hrefusal, hearlier⟩
    cases earlier with
    | nil =>
      cases hpast
      exact .inl hrefusal
    | cons first earlier =>
      obtain ⟨rfl, rfl⟩ := cons.inj hpast
      obtain ⟨hfirst, hearlier⟩ := forall_mem_cons.mp hearlier
      exact .inr ⟨hfirst, earlier, refusal, later, rfl, hrefusal, hearlier⟩
  · rintro (hrefusal | ⟨hpassing, earlier, refusal, later, rfl, hrefusal, hearlier⟩)
    · exact ⟨[], moment, past, rfl, hrefusal, forall_mem_nil _⟩
    · exact ⟨moment :: earlier, refusal, later, rfl, hrefusal, forall_mem_cons.mpr ⟨hpassing, hearlier⟩⟩

theorem after_of_stopped (hstopped : lease.keeper.running = false) (past : List Moment) :
    past.foldl (Lease.after rt) lease = lease := by
  induction past with
  | nil => rfl
  | cons moment past ih =>
    have hafter : lease.after rt moment = lease := by
      cases moment with
      | renewal fetched granted => simp [Lease.after, hstopped]
      | step time o answer => rfl
    rw [foldl_cons, hafter, ih]

/-- From the start of its thread, the keeper latches the first refusal, unless it has died before. -/
theorem lost_iff_refused (past : List Moment) (leaseEnd : Nat) :
    (past.foldl (Lease.after rt) { leaseEnd }).keeper.lost ≠ none ↔ Refused rt past := by
  induction past generalizing leaseEnd with
  | nil => simp [Refused]
  | cons moment past ih =>
    rw [foldl_cons, refused_cons]
    cases moment with
    | step time o answer =>
      rw [show Lease.after rt { leaseEnd } (.step time o answer) = { leaseEnd } from rfl, ih]
      simp [Refusal, Passing]
    | renewal fetched granted =>
      change (past.foldl (Lease.after rt) ⟨LeaseKeeper.renewed rt {} fetched, granted.getD leaseEnd⟩
        ).keeper.lost ≠ none ↔ _
      unfold LeaseKeeper.renewed
      cases hresult : apiResult rt fetched with
      | ok value => simpa [Refusal, Passing, hresult] using ih _
      | error e =>
        cases e with
        | other name =>
          rw [after_of_stopped rfl]
          simp [Refusal, Passing, hresult]
        | provision error =>
          cases hterminal : error.terminal with
          | true =>
            simp only [hterminal, if_true]
            rw [after_of_stopped rfl]
            simp [Refusal, hresult, hterminal]
          | false => simpa [Refusal, Passing, hresult, hterminal] using ih _

theorem stepsOf_append (past future : List Moment) :
    stepsOf (past ++ future) = stepsOf past ++ stepsOf future :=
  filterMap_append

theorem Deployment.stepsOf_late {d : Deployment} {future : List Moment}
    (hlate : d.Late rt past time answer future) :
    stepsOf d.moments = stepsOf past ++ ⟨.leaseLost, answer⟩ :: stepsOf future := by
  rw [hlate.1, stepsOf_append]
  rfl

/-- Every check after the end of the lease stops the deployment exactly if the keeper has been
refused before it, with nothing but renewals and passing failures before the refusal. -/
theorem deployment_stops_iff {d : Deployment} (hd : d.Performed rt config) :
    d.StopsWhenLapsed rt ↔
      ∀ past time answer future, d.Late rt past time answer future → Refused rt past := by
  obtain ⟨hheld, hend, hblamed⟩ := processClaim_course hd.course
  refine forall_congr' fun past => forall_congr' fun time => forall_congr' fun answer =>
    forall_congr' fun future => imp_congr_right fun hlate => ?_
  have hsteps := Deployment.stepsOf_late hlate
  have hanswer : answer = (d.leaseAfter rt past).keeper.lost := hd.latched past time answer future hlate.1
  rw [← lost_iff_refused past d.leaseEnd]
  change _ ↔ (d.leaseAfter rt past).keeper.lost ≠ none
  rw [← hanswer]
  have hpast : Held (stepsOf past) := hheld _ _ _ hsteps
  constructor
  · rintro ⟨hfuture, lost, hrest⟩ rfl
    -- all that was seen is a lease that holds, so the error would speak of something else
    have htrace : Held (stepsOf d.moments) := by
      rw [hsteps, hfuture]
      exact hpast.append rfl
    exact (hblamed _ hrest).2 htrace _ rfl rfl
  · intro hlost
    obtain ⟨lost, rfl⟩ := Option.ne_none_iff_exists'.mp hlost
    have hnot : ¬ Held (stepsOf past ++ [⟨.leaseLost, some lost⟩]) := fun h => by
      have hlast := h ⟨.leaseLost, some lost⟩ (by simp)
      cases hlast
    have hfuture : stepsOf future = [] := by
      cases hnext : stepsOf future with
      | nil => rfl
      | cons step rest =>
        rw [hnext] at hsteps
        refine absurd (hheld (stepsOf past ++ [⟨.leaseLost, some lost⟩]) step rest ?_) hnot
        rw [hsteps, append_assoc]
        rfl
    rw [hfuture] at hsteps
    rw [hsteps] at hend hblamed
    obtain ⟨e, hrest⟩ := hend.resolve_left hnot
    refine ⟨hfuture, lost, ?_⟩
    rw [hrest, (hblamed e hrest).1 ⟨.leaseLost, some lost⟩ (by simp) lost rfl]

/-! ### The images of a claim, and a first check

A run that gets as far as the check after the first image, whatever the keeper has latched by then. -/

def NulFree (word : String) : Prop := '\x00' ∉ word.toList

instance (word : String) : Decidable (NulFree word) := inferInstanceAs (Decidable (_ ∉ _))

theorem course_dockerCmd {answers : Answers} {args : List String} {timeout : Nat}
    {errorCode : String} {terminal : Bool} {output : List Char}
    (hwords : ∀ word ∈ config.docker :: args, NulFree word)
    (hanswer : answers (.runBounded (config.docker :: args)) = .exited 0 output) :
    Proc.Course exec w (dockerCmd config args timeout errorCode terminal).run
      [⟨.runBounded (config.docker :: args), .exited 0 output⟩] w (.ret (.ok output)) := by
  have hnul : ¬ (config.docker :: args).any (·.toList.contains '\x00') = true := by
    simpa [NulFree] using hwords
  have hran : Proc.Course exec w (runBounded (config.docker :: args) timeout errorCode).run
      [⟨.runBounded (config.docker :: args), .exited 0 output⟩] w (.ret (.ok (0, output))) := by
    have hexec : exec w answers (.runBounded (config.docker :: args)) = (.exited 0 output, w) :=
      Prod.ext hanswer rfl
    exact course_bind (course_ensure hnul) (course_bind (course_ask answers hexec) .here)
  exact course_bind hran .here

theorem fullmatch_revision {s : String} : Pattern.fullmatch revisionPattern s = true ↔
    s.toList.length = 40 ∧ ∀ c ∈ s.toList, c ∈ hexdigit := by
  rw [Pattern.fullmatch_iff, revisionPattern, Pattern.mem_times_oneOf]

theorem fullmatch_digest {digest : List Char} (hlength : digest.length = 64)
    (hdigits : ∀ c ∈ digest, c ∈ hexdigit) :
    Pattern.fullmatch digestPattern (String.ofList ("sha256:".toList ++ digest)) = true := by
  rw [Pattern.fullmatch_iff, digestPattern, RegularExpression.matches'_mul, Language.mem_mul]
  exact ⟨"sha256:".toList, Pattern.mem_literal.mpr rfl, digest,
    Pattern.mem_times_oneOf.mpr ⟨hlength, hdigits⟩, by simp⟩

def zeros (n : Nat) : List Char := List.replicate n '0'

def acmeDigest (name : String) : String := String.ofList (name.toList ++ '@' :: "sha256:".toList ++ zeros 64)

def acmeMetadata : Json :=
  .obj [("Config", .obj [("Labels", .obj [("org.opencontainers.image.revision",
      .str (String.ofList (zeros 40)))])]),
    ("RepoDigests", .arr [.str (acmeDigest "crowdrelay-api"), .str (acmeDigest "crowdrelay-worker")])]

def dockerRuntime : Runtime := { plainRuntime with loads := fun _ => .ok acmeMetadata }

def dockerAnswers (lost : Option ProvisionError) : Answers
  | .runBounded _ => .exited 0 ['\x7b']
  | .leaseLost => lost
  | o => plainAnswers o

def acmeClaim : Json := .obj [("job", acmeJob), ("claimToken", .str "token")]

theorem digestOf_acmeDigest (name : String) :
    digestOf name.toList (.str (acmeDigest name)) = some (acmeDigest name) := by
  have hmatch : Pattern.fullmatch digestPattern (String.ofList ("sha256:".toList ++ zeros 64)) = true :=
    fullmatch_digest (by decide) (by decide)
  have hdrop : (acmeDigest name).toList.drop (name.toList ++ ['@']).length =
      "sha256:".toList ++ zeros 64 := by
    simp [acmeDigest]
  have hlead : (name.toList ++ ['@']).isPrefixOf (acmeDigest name).toList = true := by
    simp [acmeDigest]
  simp only [digestOf, hdrop, hlead, hmatch, Bool.and_self, if_true]

theorem digestOf_other {repository : List Char}
    (hother : (repository ++ ['@']).isPrefixOf reference.toList = false) :
    digestOf repository (.str reference) = none := by
  simp [digestOf, hother]

def acmeImage (name : String) : String := name ++ ":" ++ acmeVersion

def Released (name : String) : Prop := name = "crowdrelay-api" ∨ name = "crowdrelay-worker"

theorem pinnedReference_acme (hname : Released name) :
    pinnedReference (acmeImage name) (String.ofList (zeros 40)) acmeMetadata = .ok (acmeDigest name) := by
  have hrepository : (Python.rpartition ':' (acmeImage name).toList).1 = name.toList := by
    rcases hname with rfl | rfl <;> decide
  have hfound : ([Json.str (acmeDigest "crowdrelay-api"), .str (acmeDigest "crowdrelay-worker")].filterMap
      (digestOf name.toList)) = [acmeDigest name] := by
    rcases hname with rfl | rfl
    · rw [filterMap_cons_some (digestOf_acmeDigest _),
        filterMap_cons_none (digestOf_other (by decide))]
      rfl
    · rw [filterMap_cons_none (digestOf_other (by decide)),
        filterMap_cons_some (digestOf_acmeDigest _)]
      rfl
  have hmatch : Pattern.fullmatch revisionPattern (String.ofList (zeros 40)) = true :=
    fullmatch_revision.mpr (by decide)
  unfold pinnedReference
  rw [show revisionOf acmeMetadata = .str (String.ofList (zeros 40)) from rfl]
  simp only [hmatch, if_true]
  refine (bind_of_ok rfl).trans ?_
  rw [if_neg (not_not.mpr rfl)]
  refine (bind_of_ok rfl).trans ?_
  rw [hrepository, hfound]
  rfl

def pinSteps (name : String) : Trace HostOp HostOp.Result :=
  [⟨.runBounded ["docker", "pull", "--quiet", acmeImage name], .exited 0 ['\x7b']⟩,
    ⟨.runBounded ["docker", "image", "inspect", acmeImage name, "--format", "\x7b\x7bjson .\x7d\x7d"],
      .exited 0 ['\x7b']⟩]

theorem course_pinnedImageReference (w : World) (hname : Released name) :
    Proc.Course exec w (pinnedImageReference dockerRuntime plainConfig (acmeImage name)
      (String.ofList (zeros 40))).run (pinSteps name) w (.ret (.ok (acmeDigest name))) := by
  have himage : NulFree (acmeImage name) := by
    rcases hname with rfl | rfl <;> decide
  have hdocker : ∀ args : List String, (∀ word ∈ args, NulFree word) → ∀ timeout errorCode,
      Proc.Course exec w (dockerCmd plainConfig args timeout errorCode).run
        [⟨.runBounded ("docker" :: args), .exited 0 ['\x7b']⟩] w (.ret (.ok ['\x7b'])) := by
    intro args hargs timeout errorCode
    exact course_dockerCmd (forall_mem_cons.mpr ⟨by decide, hargs⟩)
      (rfl : dockerAnswers none (.runBounded ("docker" :: args)) = .exited 0 ['\x7b'])
  refine course_bind (hdocker _ ?_ 600 "image_pull_failed") ?_
  · exact forall_mem_cons.mpr ⟨by decide, forall_mem_cons.mpr ⟨by decide,
      forall_mem_singleton.mpr himage⟩⟩
  have hinspect : Proc.Course exec w (inspectImage dockerRuntime plainConfig (acmeImage name)).run
      [⟨.runBounded ["docker", "image", "inspect", acmeImage name, "--format", "\x7b\x7bjson .\x7d\x7d"],
        .exited 0 ['\x7b']⟩] w (.ret (.ok acmeMetadata)) := by
    refine course_bind (hdocker _ ?_ 60 "image_inspect_failed") (course_require (by rfl))
    simp only [forall_mem_cons, not_mem_nil, IsEmpty.forall_iff, implies_true, and_true]
    exact ⟨by decide, by decide, himage, by decide, by decide⟩
  exact course_bind hinspect (course_require (pinnedReference_acme hname))

theorem course_pinRole (w : World) (lost : Option ProvisionError) {key : String} {deployment : Json}
    (hname : Released name) (himage : text (item image acmePlan) = acmeImage name)
    (hstable : verifyReleaseDigestStability deployment acmeVersion key (acmeDigest name) = .ok ()) :
    Proc.Course exec w (pinRole dockerRuntime plainConfig acmePlan acmeVersion (String.ofList (zeros 40))
        deployment image key).run (pinSteps name ++ [⟨.leaseLost, lost⟩]) w
      (.ret (match lost with
        | none => .ok (deployment.set key (.str (acmeDigest name)), acmeDigest name)
        | some lost => .error (leaseLostError lost))) := by
  unfold pinRole
  rw [himage]
  refine course_bind (course_pinnedImageReference w hname) ?_
  refine course_bind (course_require hstable) ?_
  cases lost with
  | none =>
    have hcheck : Proc.Course exec w checkLease.run [⟨.leaseLost, none⟩] w (.ret (.ok ())) :=
      .op (dockerAnswers none) .here
    exact course_bind hcheck .here
  | some lost =>
    have hcheck : Proc.Course exec w checkLease.run [⟨.leaseLost, some lost⟩] w
        (.ret (.error (leaseLostError lost))) := .op (dockerAnswers (some lost)) .here
    exact course_bind_of_error hcheck

theorem latchedBy_dockerAnswers : latchedBy ⟨o, (exec w (dockerAnswers none) o).1⟩ = none := by
  cases o <;> rfl

theorem acme_prepared : ∃ trace u, ∃ port : Nat,
    Proc.Course exec madeHost (prepareFiles dockerRuntime plainConfig acmePlan).run trace u
      (.ret (.ok port)) ∧ Held trace ∧
      (u.tenant "acme").deployment = some (recordPlan acmePlan port (.obj [])) := by
  have hfinish : ∃ trace : Trace HostOp HostOp.Result, ∃ u r,
      Proc.Course exec madeHost (prepareFiles dockerRuntime plainConfig acmePlan).run trace u (.ret r) ∧
        (∀ step ∈ trace, ∃ w, step.2 = (exec w (dockerAnswers none) step.1).1) ∧
        Proc.Completes exec madeHost (prepareFiles dockerRuntime plainConfig acmePlan).run u r := by
    obtain ⟨trace, hcourse, hanswers⟩ := Proc.course_finish (dockerAnswers none)
    exact ⟨trace, _, _, hcourse, hanswers, Proc.completes_finish (dockerAnswers none)⟩
  obtain ⟨trace, u, r, hcourse, hanswers, hcompletes⟩ := hfinish
  obtain ⟨base, slug, placement, hplaced⟩ := safePlan_placed acmePlan_safe
  obtain rfl := hplaced.slugOf_eq
  obtain ⟨⟨port, rfl⟩, _⟩ := (recovered_iff_ready hplaced hcompletes).mpr (madeHost_ready dockerRuntime)
  obtain ⟨n, hrecorded⟩ := completes_cases (meets_prepareFiles_records dockerRuntime acmePlan 0)
    hcompletes
  refine ⟨trace, u, port, hcourse, fun step hstep => ?_, ?_⟩
  · obtain ⟨w, hanswer⟩ := hanswers step hstep
    obtain ⟨o, answer⟩ := step
    change answer = (exec w (dockerAnswers none) o).1 at hanswer
    rw [hanswer]
    exact latchedBy_dockerAnswers
  · have hslug : slugOf acmePlan = "acme" := by decide
    have hwritten := hrecorded.written
    rw [hslug] at hwritten
    rw [hwritten]
    rfl

variable {before after : Trace HostOp HostOp.Result} {host now : World} {fetched : Fetched}

theorem acme_course (lost : Option ProvisionError) : ∃ trace u rest, Held trace ∧
    Proc.Course exec madeHost (processClaim dockerRuntime plainConfig acmeClaim).run
      (trace ++ ⟨.leaseLost, lost⟩ ::
        if lost = none then pinSteps "crowdrelay-worker" ++ [⟨.leaseLost, none⟩] else []) u rest := by
  obtain ⟨trace, u, port, hprepared, hheld, hrecord⟩ := acme_prepared
  obtain ⟨look, hlook, hread⟩ : ∃ look, latchedBy look = none ∧
      Proc.Course exec u (ask (HostOp.readDeployment (slugOf acmePlan)) : Agent _).run [look] u
        (.ret (.ok (some (recordPlan acmePlan port (.obj []))))) :=
    ⟨_, rfl, course_ask (dockerAnswers none) (Prod.ext hrecord rfl)⟩
  have hsafe : safePlan dockerRuntime.toRuntime acmeJob = .ok acmePlan := acmePlan_safe
  have hapi : text (item "apiImage" acmePlan) = acmeImage "crowdrelay-api" := by decide
  have hworker : text (item "workerImage" acmePlan) = acmeImage "crowdrelay-worker" := by
    decide
  have hdeploy : ∃ rest, Proc.Course exec u (deploy dockerRuntime plainConfig acmePlan port
      (jobIdOf dockerRuntime acmeJob) "token" acmeVersion (String.ofList (zeros 40))).run
      ([look] ++ ((pinSteps "crowdrelay-api" ++ [⟨.leaseLost, lost⟩]) ++
        if lost = none then pinSteps "crowdrelay-worker" ++ [⟨.leaseLost, none⟩] else [])) u rest := by
    cases lost with
    | none =>
      exact ⟨_, course_bind hread (course_bind (course_pinRole u none (.inl rfl) hapi rfl)
        (course_bind_here (course_pinRole u none (.inr rfl) hworker rfl)))⟩
    | some lost =>
      exact ⟨_, course_bind hread (course_bind_of_error
        (course_pinRole u (some lost) (.inl rfl) hapi rfl))⟩
  obtain ⟨rest, hdeploy⟩ := hdeploy
  have hcourse : Proc.Course exec madeHost (processClaim dockerRuntime plainConfig acmeClaim).run _ u rest :=
    course_require_bind hsafe (course_require_bind rfl (course_bind hprepared hdeploy))
  refine ⟨trace ++ look :: pinSteps "crowdrelay-api", u, rest, ?_, by simpa [append_assoc] using hcourse⟩
  refine forall_mem_append.mpr ⟨hheld, forall_mem_cons.mpr ⟨hlook, ?_⟩⟩
  simp [pinSteps, latchedBy]

def stepsAt (time : Nat) (trace : Trace HostOp HostOp.Result) : List Moment :=
  trace.map fun step => .step time step.1 step.2

theorem stepsOf_stepsAt (time : Nat) (trace : Trace HostOp HostOp.Result) :
    stepsOf (stepsAt time trace) = trace := by
  induction trace with
  | nil => rfl
  | cons step trace ih =>
    change step :: stepsOf (stepsAt time trace) = _
    rw [ih]

theorem mem_stepsAt {time' : Nat} {answer : o.Result}
    (hmem : .step time' o answer ∈ stepsAt time trace) : time' = time ∧ ⟨o, answer⟩ ∈ trace := by
  obtain ⟨step, hstep, hsame⟩ := mem_map.mp hmem
  cases hsame
  exact ⟨rfl, hstep⟩

theorem after_of_steps (hpast : ∀ moment ∈ past, moment ∈ stepsAt time trace) :
    past.foldl (Lease.after rt) lease = lease := by
  induction past with
  | nil => rfl
  | cons moment past ih =>
    obtain ⟨hmoment, hrest⟩ := forall_mem_cons.mp hpast
    obtain ⟨step, _, hstep⟩ := mem_map.mp hmoment
    rw [← hstep]
    exact ih hrest

def renewedOnce (fetched : Fetched) (before after : Trace HostOp HostOp.Result) : List Moment :=
  stepsAt 0 before ++ .renewal fetched none :: stepsAt 100 after

theorem performed_renewedOnce (leaseEnd : Nat)
    (hcourse : Proc.Course exec host (processClaim rt config claim).run (before ++ after) now rest)
    (hbefore : Held before)
    (hafter : ∀ answer, ⟨.leaseLost, answer⟩ ∈ after → answer = (({} : LeaseKeeper).renewed rt fetched).lost) :
    Deployment.Performed rt config
      ⟨claim, leaseEnd, host, renewedOnce fetched before after, now, rest⟩ where
  course := by
    have hsteps : stepsOf (renewedOnce fetched before after) = before ++ after := by
      rw [renewedOnce, stepsOf_append, stepsOf_stepsAt]
      exact congrArg _ (stepsOf_stepsAt 100 after)
    rwa [hsteps]
  latched := by
    intro past time answer future hmoments
    rcases append_eq_append_iff.mp hmoments with ⟨tail, rfl, htail⟩ | ⟨tail, hpast, htail⟩
    · -- the look comes after the renewal
      cases tail with
      | nil => cases htail
      | cons renewal tail =>
        obtain ⟨hrenewal, hafterward⟩ := cons.inj htail
        have hmem : .step time .leaseLost answer ∈ stepsAt 100 after :=
          hafterward ▸ mem_append_right _ mem_cons_self
        have htail : ∀ moment ∈ tail, moment ∈ stepsAt 100 after :=
          fun _ h => hafterward ▸ mem_append_left _ h
        rw [hafter answer (mem_stepsAt hmem).2, ← hrenewal, Deployment.leaseAfter, foldl_append,
          foldl_cons, after_of_steps fun _ h => h, after_of_steps htail]
        rfl
    · -- it comes before, when nothing is latched
      cases tail with
      | nil => cases htail
      | cons look tail =>
        obtain ⟨hlook, _⟩ := cons.inj htail
        have hmem : .step time .leaseLost answer ∈ stepsAt 0 before := by simp [hpast, hlook]
        have hsteps : ∀ moment ∈ past, moment ∈ stepsAt 0 before :=
          fun _ h => hpast ▸ mem_append_left _ h
        rw [Deployment.leaseAfter, after_of_steps hsteps]
        exact hbefore _ (mem_stepsAt hmem).2

theorem late_renewedOnce :
    Deployment.Late rt
      ⟨claim, 60, host, renewedOnce fetched before (⟨.leaseLost, answer⟩ :: after), now, rest⟩
      (stepsAt 0 before ++ [.renewal fetched none]) 100 answer (stepsAt 100 after) := by
  refine ⟨?_, ?_⟩
  · simp [renewedOnce, stepsAt]
  · rw [Deployment.leaseAfter, foldl_append, after_of_steps fun _ h => h]
    change 60 < 100
    omega

def conflict : Fetched := .httpError 409 (.ok (.error .jsonDecodeError))

def conflictError : ProvisionError := { code := "control_plane_http_error", detail := "HTTP 409" }

/-- A refusal that has come to the keeper before the check stops the deployment there. -/
theorem deployment_stops_iff_conflict :
    ∃ d : Deployment, d.Performed dockerRuntime plainConfig ∧
      (∃ past answer future, d.Late dockerRuntime past 100 answer future) ∧
        d.StopsWhenLapsed dockerRuntime := by
  have hlost : (({} : LeaseKeeper).renewed dockerRuntime conflict).lost = some conflictError := by
    decide
  obtain ⟨trace, u, rest, hheld, hcourse⟩ := acme_course (some conflictError)
  have hlook : ∀ answer, (⟨.leaseLost, answer⟩ : (o : HostOp) × o.Result) ∈
      [(⟨.leaseLost, some conflictError⟩ : (o : HostOp) × o.Result)] →
      answer = (({} : LeaseKeeper).renewed dockerRuntime conflict).lost := by
    simp [hlost]
  have hperformed := performed_renewedOnce 60 hcourse hheld hlook
  refine ⟨_, hperformed, ⟨_, _, _, late_renewedOnce⟩,
    (deployment_stops_iff hperformed).mpr fun past time answer future hlate => ?_⟩
  have hmem : Moment.step time .leaseLost answer ∈
      renewedOnce conflict trace [⟨.leaseLost, some conflictError⟩] := by
    have hmoments : renewedOnce conflict trace [⟨.leaseLost, some conflictError⟩] = _ := hlate.1
    rw [hmoments]
    simp
  rcases mem_append.mp hmem with hmem | hmem
  · -- at the start the lease has not expired
    have htime := (mem_stepsAt hmem).1
    have hexpired := hlate.2
    omega
  · have hanswer := hlook answer (mem_stepsAt (mem_of_ne_of_mem (by simp) hmem)).2
    rw [← lost_iff_refused past 60]
    have hlatched : answer = (past.foldl (Lease.after dockerRuntime) { leaseEnd := 60 }).keeper.lost :=
      hperformed.latched past time answer future hlate.1
    rw [← hlatched, hanswer, hlost]
    exact Option.some_ne_none _

/-- A connection that is reset while the lease is renewed ends the keeper's thread without a trace. The
lease expires, the check finds nothing, and the next image is pulled. -/
theorem deployment_goes_on :
    ∃ d : Deployment, d.Performed dockerRuntime plainConfig ∧
      (∃ past future, d.Late dockerRuntime past 100 none future ∧
        ⟨.runBounded ["docker", "pull", "--quiet", acmeImage "crowdrelay-worker"], .exited 0 ['\x7b']⟩ ∈
          stepsOf future) ∧ ¬ d.StopsWhenLapsed dockerRuntime := by
  obtain ⟨trace, u, rest, hheld, hcourse⟩ := acme_course none
  have hlooks : ∀ answer, (⟨.leaseLost, answer⟩ : (o : HostOp) × o.Result) ∈
      (⟨.leaseLost, none⟩ : (o : HostOp) × o.Result) ::
        (pinSteps "crowdrelay-worker" ++ [⟨.leaseLost, none⟩]) →
      answer = (({} : LeaseKeeper).renewed dockerRuntime (.raised (.osError "ConnectionResetError"))).lost := by
    simp [pinSteps, LeaseKeeper.renewed, apiResult, apiException, translated]
  have hperformed := performed_renewedOnce 60 hcourse hheld hlooks
  refine ⟨_, hperformed, ⟨_, _, late_renewedOnce, ?_⟩, fun hstops => ?_⟩
  · rw [stepsOf_stepsAt]
    exact mem_cons_self
  · have hnothing := (hstops _ _ _ _ late_renewedOnce).1
    cases hnothing

end ControlPlane.Provisioner
