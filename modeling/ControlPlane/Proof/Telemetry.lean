import ControlPlane.Proof.Fencing

/-!
# The level the guarantee is judged on

Reports merge the fan level by heartbeat and completions wipe it, so it is the newest only if no
completion follows a measurement and none comes behind a heartbeat that carried none.
-/

namespace ControlPlane

open ReadCommitted Store Option

section Newest

variable {τ α : Type} [LinearOrder τ] {xs : List (τ × α)}

/-- The value with the newest stamp, in a list with the latest arrival first. Among equal stamps the
latest arrival counts. -/
def newest : List (τ × α) → Option (τ × α)
  | [] => none
  | x :: xs => if (newest xs).all (·.1 ≤ x.1) then some x else newest xs

theorem le_newest {y : τ × α} (hmem : y ∈ xs) : ∃ x, newest xs = some x ∧ y.1 ≤ x.1 := by
  induction xs with
  | nil => simp at hmem
  | cons x xs ih =>
    unfold newest
    split_ifs with hall
    · refine ⟨x, rfl, ?_⟩
      obtain rfl | hrest := List.mem_cons.mp hmem
      · exact le_rfl
      · obtain ⟨z, hz, hle⟩ := ih hrest
        exact hle.trans (by simpa [hz] using hall)
    · cases hz : newest xs with
      | none => simp [hz] at hall
      | some z =>
        refine ⟨z, rfl, ?_⟩
        obtain rfl | hrest := List.mem_cons.mp hmem
        · simp only [hz, all_some, decide_eq_true_eq, not_le] at hall
          exact hall.le
        · obtain ⟨z', hz', hle⟩ := ih hrest
          rw [hz, some.injEq] at hz'
          exact hz' ▸ hle

theorem newest_mem {x : τ × α} (hnewest : newest xs = some x) : x ∈ xs := by
  induction xs with
  | nil => simp [newest] at hnewest
  | cons y ys ih =>
    unfold newest at hnewest
    split_ifs at hnewest
    · obtain rfl := some.inj hnewest
      exact List.mem_cons_self
    · exact List.mem_cons_of_mem _ (ih hnewest)

end Newest

variable {cfg : Config} {s t u : State} {a : Action Key Call} {tenantId : Uuid}
  {old : Option RuntimeStatusRow} {new : RuntimeStatusRow}

inductive Telemetry where
  | report (input : RuntimeReportRequest)
  | completion (completion : ProvisioningCompletion)
deriving DecidableEq

def Call.telemetry : Call → Option Telemetry
  | .report _ input => some (.report input)
  | .complete _ _ _ completion => some (.completion completion)
  | _ => none

def Step.telemetry (tenantId : Uuid) (e : Step) : Option Telemetry :=
  (Protocol.committing (.runtime tenantId) e.before e.action).bind Call.telemetry

def measurement : Telemetry → Option (Instant × Int)
  | .report input =>
    input.lastHeartbeatAt.bind fun heartbeat => input.northStarFans.map (heartbeat, ·)
  | .completion _ => none

def measurements (tenantId : Uuid) (history : List Step) : List (Instant × Int) :=
  history.filterMap fun e => (e.telemetry tenantId).bind measurement

structure Level where
  fans : Option Int
  heartbeat : Option Instant

def levelOf (row : Option RuntimeStatusRow) : Level where
  fans := row.bind (·.northStarFans)
  heartbeat := row.bind (·.lastHeartbeatAt)

def levelAfter (level : Level) : Telemetry → Level
  | .report input =>
    if notOlder input.lastHeartbeatAt level.heartbeat then
      { fans := input.northStarFans.or level.fans
        heartbeat := input.lastHeartbeatAt.or level.heartbeat }
    else level
  | .completion _ => { level with fans := none }

def Levelled (event : Telemetry) (old : Option RuntimeStatusRow) (new : RuntimeStatusRow) : Prop :=
  levelOf (some new) = levelAfter (levelOf old) event

variable {call : Call}

theorem levelled_of_write (hwrite : RuntimeWrite call tenantId old new) :
    ∃ event, call.telemetry = some event ∧ Levelled event old new := by
  cases hwrite with
  | report slug input hcall now =>
    refine ⟨.report input, by simp [hcall, Call.telemetry], ?_⟩
    cases old with
    | none => cases hbeat : input.lastHeartbeatAt <;>
        simp [Levelled, levelAfter, levelOf, notOlder, reportedRow, hbeat]
    | some row =>
      by_cases hnewer : notOlder input.lastHeartbeatAt row.lastHeartbeatAt = true <;>
        simp [Levelled, levelAfter, levelOf, mergeReport, hnewer]
  | deployed jobId worker token completion hcall =>
    refine ⟨.completion completion, by simp [hcall, Call.telemetry], ?_⟩
    cases old <;> rfl

theorem levelAfter_again (event : Telemetry) (level : Level) :
    levelAfter (levelAfter level event) event = levelAfter level event := by
  cases event with
  | completion => rfl
  | report input =>
    by_cases holder : notOlder input.lastHeartbeatAt level.heartbeat = true
    · cases hbeat : input.lastHeartbeatAt <;> cases hfans : input.northStarFans <;>
        simp_all [levelAfter, notOlder]
    · simp [levelAfter, holder]

theorem levelled_of_chain {readings : List Instant}
    (hchain : Chain (callWrites cfg call) readings (.runtime tenantId) old new) :
    ∃ event, call.telemetry = some event ∧ Levelled event old new := by
  refine hchain.relates (R := fun old new => ∃ event, call.telemetry = some event ∧
    Levelled event old new) (fun _ _ _ _ _ hwrite => levelled_of_write hwrite) ?_
  rintro old mid new ⟨event, hevent, hfirst⟩ ⟨event', hevent', hsecond⟩
  rw [hevent, some.injEq] at hevent'
  subst hevent'
  refine ⟨event, hevent, ?_⟩
  rw [Levelled, hsecond, hfirst, levelAfter_again]

theorem lookup_of_no_telemetry (hholds : (protocol cfg).Holds t)
    (hstep : step (server cfg) t a = some u)
    (hnone : Step.telemetry tenantId ⟨t, a, u⟩ = none) :
    u.committed.lookup (.runtime tenantId) = t.committed.lookup (.runtime tenantId) := by
  cases hcall : Protocol.committing (.runtime tenantId) t a with
  | none => exact Protocol.lookup_of_not_committing hstep hholds hcall
  | some call =>
    obtain ⟨new, readings, -, hchain⟩ := Protocol.chain_of_committing hstep hholds hcall
    obtain ⟨event, hevent, -⟩ := levelled_of_chain hchain
    simp [Step.telemetry, hcall, hevent] at hnone

variable {event : Telemetry}

theorem levelled_of_telemetry (hholds : (protocol cfg).Holds t)
    (hstep : step (server cfg) t a = some u)
    (hevent : Step.telemetry tenantId ⟨t, a, u⟩ = some event) :
    ∃ new : RuntimeStatusRow, u.committed.lookup (.runtime tenantId) = some new ∧
      Levelled event (t.committed.lookup (.runtime tenantId)) new := by
  obtain ⟨call, hcall, htelemetry⟩ := bind_eq_some_iff.mp hevent
  obtain ⟨new, readings, hnew, hchain⟩ := Protocol.chain_of_committing hstep hholds hcall
  obtain ⟨event', hevent', hlevelled⟩ := levelled_of_chain hchain
  rw [htelemetry, some.injEq] at hevent'
  exact ⟨new, hnew, hevent' ▸ hlevelled⟩

structure Shows (level : Level) (measured : List (Instant × Int)) : Prop where
  fans : level.fans = (newest measured).map (·.2)
  heartbeat : ∀ m, newest measured = some m → ∃ stored, level.heartbeat = some stored ∧ m.1 ≤ stored

/-- When an event leaves the newest measurement in the row: a completion before every measurement;
or a report whose level comes with a heartbeat that is not behind the stored one, or behind another
measurement's, or whose level is the stored one. -/
def Telemetry.keeps (measured : List (Instant × Int)) (level : Level) : Telemetry → Bool
  | .completion _ => measured.isEmpty
  | .report input =>
    input.northStarFans.all fun fans =>
      input.lastHeartbeatAt.any fun heartbeat =>
        notOlder (some heartbeat) level.heartbeat || measured.any (heartbeat < ·.1) ||
          level.fans = some fans

variable {level : Level} {measured : List (Instant × Int)} {heartbeat : Instant}

theorem shows_cons_newer (hshows : Shows level measured) (fans : Int)
    (hnewer : notOlder (some heartbeat) level.heartbeat = true) :
    Shows ⟨some fans, some heartbeat⟩ ((heartbeat, fans) :: measured) := by
  have hnewest : newest ((heartbeat, fans) :: measured) = some (heartbeat, fans) := by
    refine if_pos ?_
    cases hm : newest measured with
    | none => rfl
    | some m =>
      obtain ⟨stored, hstored, hle⟩ := hshows.heartbeat m hm
      rw [hstored] at hnewer
      simp only [notOlder, decide_eq_true_eq] at hnewer
      simpa using hle.trans hnewer
  refine ⟨by rw [hnewest]; rfl, fun m hm => ⟨heartbeat, rfl, ?_⟩⟩
  rw [hnewest, some.injEq] at hm
  rw [← hm]

/-- A report behind the stored heartbeat is dropped, and may be if an other measurement is newer or
says the same. -/
theorem shows_cons_older (hshows : Shows level measured) {fans : Int}
    (holder : ¬ notOlder (some heartbeat) level.heartbeat = true)
    (hspare : (∃ m ∈ measured, heartbeat < m.1) ∨ level.fans = some fans) :
    Shows level ((heartbeat, fans) :: measured) := by
  obtain ⟨stored, hstored, hlt⟩ : ∃ stored, level.heartbeat = some stored ∧ heartbeat < stored := by
    cases hstored : level.heartbeat with
    | none => simp [notOlder, hstored] at holder
    | some stored => exact ⟨stored, rfl, by simpa [notOlder, hstored] using holder⟩
  by_cases hall : (newest measured).all (·.1 ≤ heartbeat) = true
  · have hnewest : newest ((heartbeat, fans) :: measured) = some (heartbeat, fans) := if_pos hall
    refine ⟨?_, fun m hm => ⟨stored, hstored, ?_⟩⟩
    · obtain ⟨m, hmem, hbehind⟩ | hsame := hspare
      · obtain ⟨x, hx, hle⟩ := le_newest hmem
        simp only [hx, all_some, decide_eq_true_eq] at hall
        exact absurd hall (not_le.mpr (hbehind.trans_le hle))
      · rw [hnewest, hsame]
        rfl
    · rw [hnewest, some.injEq] at hm
      rw [← hm]
      exact hlt.le
  · have hnewest : newest ((heartbeat, fans) :: measured) = newest measured := if_neg hall
    exact ⟨by rw [hnewest]; exact hshows.fans, by rw [hnewest]; exact hshows.heartbeat⟩

theorem shows_after (hshows : Shows level measured) (hkeeps : event.keeps measured level = true) :
    Shows (levelAfter level event) ((measurement event).toList ++ measured) := by
  cases event with
  | completion completion =>
    obtain rfl : measured = [] := by simpa [Telemetry.keeps] using hkeeps
    exact ⟨rfl, fun m hm => by simp [measurement, newest] at hm⟩
  | report input =>
    cases hfans : input.northStarFans with
    | none =>
      have hnone : measurement (.report input) = none := by simp [measurement, hfans]
      rw [hnone, toList_none, List.nil_append]
      simp only [levelAfter]
      split_ifs with hnewer
      · refine ⟨by simpa [hfans] using hshows.fans, fun m hm => ?_⟩
        obtain ⟨stored, hstored, hle⟩ := hshows.heartbeat m hm
        cases hbeat : input.lastHeartbeatAt with
        | none => exact ⟨stored, hstored, hle⟩
        | some heartbeat =>
          rw [hbeat, hstored] at hnewer
          exact ⟨heartbeat, rfl, hle.trans (by simpa [notOlder] using hnewer)⟩
      · exact hshows
    | some fans =>
      simp only [Telemetry.keeps, hfans, all_some, any_eq_true, Bool.or_eq_true,
        List.any_eq_true, decide_eq_true_eq] at hkeeps
      obtain ⟨heartbeat, hbeat, hspare⟩ := hkeeps
      have hsome : measurement (.report input) = some (heartbeat, fans) := by
        simp [measurement, hfans, hbeat]
      rw [hsome, toList_some, List.singleton_append]
      by_cases hnewer : notOlder (some heartbeat) level.heartbeat = true
      · simpa [levelAfter, hbeat, hfans, hnewer] using shows_cons_newer hshows fans hnewer
      · simp only [levelAfter, hbeat, if_neg hnewer]
        exact shows_cons_older hshows hnewer (by simpa [hnewer] using hspare)

theorem keeps_of_fans (hshows : Shows level measured)
    (hbears : ∀ input, event = .report input → input.lastHeartbeatAt.isSome = true)
    (hfans : (levelAfter level event).fans = (newest ((measurement event).toList ++ measured)).map (·.2)) :
    event.keeps measured level = true := by
  cases event with
  | completion completion =>
    have hnone : newest measured = none := by
      simpa [levelAfter, measurement, eq_comm] using hfans
    cases measured with
    | nil => rfl
    | cons x xs =>
      obtain ⟨y, hy, -⟩ := le_newest (List.mem_cons_self : x ∈ x :: xs)
      simp [hnone] at hy
  | report input =>
    obtain ⟨heartbeat, hbeat⟩ := isSome_iff_exists.mp (hbears input rfl)
    cases hlevel : input.northStarFans with
    | none => simp [Telemetry.keeps, hlevel]
    | some fans =>
      simp only [Telemetry.keeps, hlevel, hbeat, all_some, any_some,
        Bool.or_eq_true, List.any_eq_true, decide_eq_true_eq]
      by_contra hnot
      simp only [not_or, not_exists, not_and, not_lt] at hnot
      obtain ⟨⟨holder, hbehind⟩, hdiffers⟩ := hnot
      -- the report is dropped although it is the newest measurement
      have hnewest : newest ((heartbeat, fans) :: measured) = some (heartbeat, fans) := by
        refine if_pos ?_
        cases hm : newest measured with
        | none => rfl
        | some m => simpa using hbehind m (newest_mem hm)
      have hmeasured : measurement (.report input) = some (heartbeat, fans) := by
        simp [measurement, hlevel, hbeat]
      rw [hmeasured, toList_some, List.singleton_append, hnewest] at hfans
      simp only [levelAfter, hbeat, if_neg holder] at hfans
      exact hdiffers hfans

/-- The step leaves the newest measurement in the tenant's runtime row. -/
def keepsLevel (tenantId : Uuid) (earlier : List Step) (e : Step) : Bool :=
  (e.telemetry tenantId).all
    (·.keeps (measurements tenantId earlier) (levelOf (runtimeRow e.before.committed tenantId)))

theorem measurements_cons (e : Step) (history : List Step) :
    measurements tenantId (e :: history) =
      ((e.telemetry tenantId).bind measurement).toList ++ measurements tenantId history := by
  cases hm : (e.telemetry tenantId).bind measurement <;> simp [measurements, hm]

theorem levelOf_step (hholds : (protocol cfg).Holds t) (hstep : step (server cfg) t a = some u) :
    levelOf (runtimeRow u.committed tenantId) =
      (Step.telemetry tenantId ⟨t, a, u⟩).elim (levelOf (runtimeRow t.committed tenantId))
        (levelAfter (levelOf (runtimeRow t.committed tenantId))) := by
  cases htelemetry : Step.telemetry tenantId ⟨t, a, u⟩ with
  | none => rw [runtimeRow, lookup_of_no_telemetry hholds hstep htelemetry]; rfl
  | some event =>
    obtain ⟨new, hnew, hlevelled⟩ := levelled_of_telemetry hholds hstep htelemetry
    rw [runtimeRow, hnew, hlevelled]
    rfl

variable {history : List Step}

theorem shows_step (hholds : (protocol cfg).Holds t) (hstep : step (server cfg) t a = some u)
    (hkeeps : keepsLevel tenantId history ⟨t, a, u⟩ = true)
    (hshows : Shows (levelOf (runtimeRow t.committed tenantId)) (measurements tenantId history)) :
    Shows (levelOf (runtimeRow u.committed tenantId))
      (measurements tenantId (⟨t, a, u⟩ :: history)) := by
  rw [levelOf_step hholds hstep, measurements_cons]
  unfold keepsLevel at hkeeps
  cases htelemetry : Step.telemetry tenantId ⟨t, a, u⟩ with
  | none => exact hshows
  | some event =>
    rw [htelemetry, all_some] at hkeeps
    exact shows_after hshows hkeeps

theorem shows_of_run (hboot : Booted cfg s) (hfresh : s.committed.lookup (.runtime tenantId) = none)
    (hrun : Run (server cfg) anyStep s history t)
    (hkeeps : ∀ earlier e, e :: earlier <:+ history → keepsLevel tenantId earlier e = true) :
    Shows (levelOf (runtimeRow t.committed tenantId)) (measurements tenantId history) := by
  induction hrun with
  | nil =>
    rw [runtimeRow, hfresh]
    exact ⟨rfl, fun m hm => by simp [measurements, newest] at hm⟩
  | @cons earlier t a u hprior _ hstep ih =>
    refine shows_step (holds_of_reaches hboot hprior.reaches) hstep
      (hkeeps earlier ⟨t, a, u⟩ List.suffix_rfl) (ih fun older e hsuffix => ?_)
    exact hkeeps older e (hsuffix.trans (List.suffix_cons _ _))

/-- **The verdict's level.** In a run whose steps all keep the newest measurement, the guarantee is
judged on its level. Where reports bear heartbeats the condition is exact: a step outside it leaves
another level. -/
theorem guarantee_judged_on_newest (hboot : Booted cfg s)
    (hfresh : s.committed.lookup (.runtime tenantId) = none) {history : List Step}
    (hrun : Run (server cfg) anyStep s history t)
    (hkeeps : ∀ earlier e, e :: earlier <:+ history → keepsLevel tenantId earlier e = true)
    (guarantee : Option TenantGuaranteeRow) (now : Instant) :
    (guaranteeView guarantee (runtimeRow t.committed tenantId) now).currentValue =
      (newest (measurements tenantId history)).map (·.2) ∧
    (∀ row, guarantee = some row →
      (guaranteeView guarantee (runtimeRow t.committed tenantId) now).state =
        .derive (row.deadline ≤ now) ((newest (measurements tenantId history)).map (·.2))
          row.baselineValue) ∧
    ∀ a u, step (server cfg) t a = some u →
      (∀ input, Step.telemetry tenantId ⟨t, a, u⟩ = some (.report input) →
        input.lastHeartbeatAt.isSome = true) →
      ((guaranteeView guarantee (runtimeRow u.committed tenantId) now).currentValue =
          (newest (measurements tenantId (⟨t, a, u⟩ :: history))).map (·.2) ↔
        keepsLevel tenantId history ⟨t, a, u⟩ = true) := by
  have hcurrent : ∀ runtime, (guaranteeView guarantee runtime now).currentValue =
      (levelOf runtime).fans := fun runtime => by cases guarantee <;> rfl
  have hshows := shows_of_run hboot hfresh hrun hkeeps
  have hholds := holds_of_reaches hboot hrun.reaches
  refine ⟨(hcurrent _).trans hshows.fans, ?_, fun a u hstep hbears => ?_⟩
  · rintro row rfl
    rw [← hshows.fans]
    rfl
  · rw [hcurrent]
    refine ⟨fun hfans => ?_, fun hkeep => (shows_step hholds hstep hkeep hshows).fans⟩
    rw [levelOf_step hholds hstep, measurements_cons] at hfans
    unfold keepsLevel
    cases htelemetry : Step.telemetry tenantId ⟨t, a, u⟩ with
    | none => rfl
    | some event =>
      rw [htelemetry] at hfans hbears
      exact keeps_of_fans hshows (fun input heq => hbears input (by rw [heq])) hfans

def demoReport (fans : Int) (heartbeat : Instant) : Call :=
  .report "acme"
    { apiHealthy := some true, workerHealthy := some true, schemaVersion := none,
      deployedSha := none, outboxPending := none, queueLag := none, awaitingApproval := none,
      northStarFans := some fans, redditHalted := none, repliesWaiting := none,
      cutCandidateLanes := none, lastHeartbeatAt := some heartbeat }

def reportSchedule : List (Action Key Call) :=
  claimSchedule ++ alone 2 (demoReport 10 0) 9 ++ alone 3 (demoReport 20 1) 9

def keepsLevels (tenantId : Uuid) : List Step → Bool
  | [] => true
  | e :: earlier => keepsLevel tenantId earlier e && keepsLevels tenantId earlier

theorem keepsLevel_of_keepsLevels (hkeeps : keepsLevels tenantId history = true) :
    ∀ earlier e, e :: earlier <:+ history → keepsLevel tenantId earlier e = true := by
  induction history with
  | nil => exact fun earlier e hsuffix => by simp at hsuffix
  | cons e' rest ih =>
    intro earlier e hsuffix
    rw [keepsLevels, Bool.and_eq_true] at hkeeps
    obtain heq | hrest := List.suffix_cons_iff.mp hsuffix
    · obtain ⟨rfl, rfl⟩ := List.cons.inj heq
      exact hkeeps.1
    · exact ih hkeeps.2 earlier e hrest

theorem guarantee_judged_on_newest_reported :
    ∃ (history : List Step) (t : State), measurements 1 history = [(1, 20), (0, 10)] ∧
      (guaranteeView none (runtimeRow t.committed 1) 0).currentValue = some 20 := by
  have hrun : (recordSchedule (server demoConfig) [] demoState reportSchedule).map (fun r =>
      (keepsLevels 1 r.1, measurements 1 r.1)) = some (true, [(1, 20), (0, 10)]) := by
    decide
  obtain ⟨⟨history, t⟩, hschedule, heq⟩ := map_eq_some_iff.mp hrun
  obtain ⟨hkeeps, hmeasured⟩ := Prod.mk.inj heq
  refine ⟨history, t, hmeasured, ?_⟩
  rw [(guarantee_judged_on_newest (demo_booted demoConfig) rfl (run_of_recordSchedule hschedule)
    (keepsLevel_of_keepsLevels hkeeps) none 0).1, hmeasured]
  rfl

def demoVerdict (s : State) : GuaranteeState :=
  (guaranteeView (s.committed.lookup (.guarantee 1)) (runtimeRow s.committed 1) (days 91)).state

/-- A completion turns a verdict of kept into one of refund owed. -/
theorem kept_lost_by_completion :
    ∃ t u : State, Reaches (server demoConfig) anyStep demoState t ∧
      Reaches (server demoConfig) anyStep t u ∧ demoVerdict t = .kept ∧
      demoVerdict u = .refundOwed := by
  have hrun : (runSchedule (server demoConfig) demoState reportSchedule).bind (fun t =>
      (runSchedule (server demoConfig) t (alone 4 (.complete 100 "worker-1" demoToken
        ⟨8080, 7, 1, "0123456789012345678901234567890123456789"⟩) 15)).map fun u =>
          (demoVerdict t, demoVerdict u)) = some (.kept, .refundOwed) := by decide
  obtain ⟨t, hschedule, hmap⟩ := bind_eq_some_iff.mp hrun
  obtain ⟨u, hschedule', heq⟩ := map_eq_some_iff.mp hmap
  obtain ⟨hbefore, hafter⟩ := Prod.mk.inj heq
  exact ⟨t, u, reaches_of_runSchedule hschedule, reaches_of_runSchedule hschedule', hbefore, hafter⟩

end ControlPlane
