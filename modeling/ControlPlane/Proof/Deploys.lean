import ControlPlane.Deploys
import ControlPlane.ReadCommitted.Holding
import ControlPlane.ReadCommitted.Recall

/-!
# The cooldown of external deploys

Two requests that look before either has left its row are both let through; and the row an attempt
leaves first counts against the next one even after the attempt has failed.
-/

namespace ControlPlane

open ReadCommitted ReadCommitted.Handler Store Function List AList Routes

abbrev DeployState :=
  Sys Row Index DispatchRequest DispatchAnswer GitHub DeployCall (Except ApiError DispatchedJob)

abbrev DeployStep :=
  Event Row Index DispatchRequest DispatchAnswer GitHub DeployCall (Except ApiError DispatchedJob)

namespace Deploys

def protocol : Protocol Row DeployCall (Except ApiError DispatchedJob) where
  inv _ _ := True
  write _ _ _ key old _ :=
    match key with
    | .audit _ => old = none
    | _ => False
  commit _ _ := True
  resume _ _ := True
  answer _ _ _ := True

section Protocol

variable {call : DeployCall} {l : Local Row} {slug actor : String} {Q : Unit → Local Row → Prop}
  {E : ApiError → Local Row → Prop}

theorem wp_auditExternalDeploy {tenantId : Uuid} {outcome : DeployOutcome} {detail : Json}
    (hQ : ∀ l, Q () l) (hE : ∀ e l, E e l) :
    wp (protocol.contract call) (auditExternalDeploy tenantId slug actor outcome detail) l
      Q E := by
  simp [auditExternalDeploy, protocol, Protocol.contract, hQ, hE]

theorem wp_recordDispatch {tenantId : Uuid} {requested : Json} {answer : DispatchAnswer}
    (hQ : ∀ l, Q () l) (hE : ∀ e l, E e l) :
    wp (protocol.contract call)
      (Routes.recordDispatch tenantId slug actor requested answer) l Q E := by
  have hthrow (e : ApiError) (outcome : DeployOutcome) (detail : Json) :
      wp (protocol.contract call) (do
        auditExternalDeploy tenantId slug actor outcome detail
        throw e) l Q E :=
    wp_bind.mpr (wp_auditExternalDeploy (fun l => wp_throw.mpr (hE e l)) hE)
  cases answer with
  | timeout | transportError => exact hthrow ..
  | status code =>
    simp only [recordDispatch]
    split_ifs
    · exact wp_auditExternalDeploy hQ hE
    · exact hthrow ..

theorem protocol_metBy (cfg : DeployConfig) : protocol.MetBy (deployServer cfg) where
  handler call := by
    have hcommit (w : AList Row) : (protocol.contract call).commit w := trivial
    have hresume (w : AList Row) : (protocol.contract call).resume w := trivial
    have hanswer (answer : Except ApiError DispatchedJob) (l : Local Row) :
        protocol.answer call answer l := trivial
    change Prog.wp _ (triggerEcosystemDeploy cfg call.tenantId call.slug call.actor
      call.desiredVersion).run _ _
    refine wp_run.mpr ?_
    unfold triggerEcosystemDeploy recentExternalDeploy
    have hdispatch (requested : Json) (l : Local Row) :
        wp (protocol.contract call)
          (auditExternalDeploy call.tenantId call.slug call.actor .requested requested) l
          (fun _ l' => ∀ answer, wp (protocol.contract call)
            (recordDispatch call.tenantId call.slug call.actor requested answer) l'
            (fun _ _ => True) fun e => protocol.answer call (.error e))
          fun e => protocol.answer call (.error e) :=
      wp_auditExternalDeploy (fun _ _ => wp_recordDispatch (fun _ => trivial) fun _ _ => trivial)
        fun _ _ => trivial
    simp +contextual [hcommit, hresume, hanswer, hdispatch]
  keeps _ _ _ _ _ _ _ _ := trivial

end Protocol

def recent (tenantId : Uuid) (cooldown : Int) (seen : AList Row) (now : Instant) : Bool :=
  (auditsOf seen).any fun row => countsAsDeploy tenantId row && now - seconds cooldown < row.createdAt

def recordsFailure (row : AuditRow) : Bool :=
  (row.detail.textAt "outcome").any (["rejected", "transport_failed"].contains ·)

def landed : DispatchAnswer → Bool
  | .status code => 200 ≤ code && code < 300
  | .timeout => true
  | .transportError => false

inductive Stage where
  | asking
  | checking (since : Instant)
  | refused
  | cleared (checked : Instant)
  | marked (checked marker : Instant)
  | sent (marker sentAt : Instant) (landed : Bool)
  | recording (marker sentAt : Instant) (landed : Bool)
  | ended (marker outcome : Instant) (failed : Bool)
deriving DecidableEq

namespace Stage

def pending : Stage → Option Instant
  | .cleared checked | .marked checked _ => some checked
  | _ => none

def counted : Stage → List Instant
  | .marked _ marker | .sent marker _ _ | .recording marker _ _ => [marker]
  | .ended marker outcome failed => if failed then [marker] else [marker, outcome]
  | _ => []

def failed : Stage → Bool
  | .ended _ _ failed => failed
  | _ => false

def standsAfter (stage : Stage) (bound : Instant) : Prop :=
  stage.failed = false ∧ ∃ time ∈ stage.counted, bound < time

end Stage

def note (tenantId : Uuid) (cooldown : Int) :
    Stage → Op Row DispatchRequest → Scene Row GitHub → Stage
  | .asking, .begin, c => .checking c.clock
  | .checking since, .snapshot, c =>
    if recent tenantId cooldown c.seen since then .refused else .cleared since
  | .cleared checked, .commit, c =>
    match auditsOf c.writes with
    | [] => .cleared checked
    | row :: _ => .marked checked row.createdAt
  | .marked _ marker, .request _, c => .sent marker c.clock (landed c.upstream.next)
  | .sent marker sentAt landed, .begin, _ => .recording marker sentAt landed
  | .recording marker sentAt landed, .commit, c =>
    match auditsOf c.writes with
    | [] => .recording marker sentAt landed
    | row :: _ => .ended marker row.createdAt (recordsFailure row)
  | stage, _, _ => stage

def stage (tenantId : Uuid) (cooldown : Int) (sid : Nat) (history : List DeployStep) : Stage :=
  gathered (note tenantId cooldown) .asking sid history

def Known : Stage → Scene Row GitHub → Prop
  | .checking since, c => c.start = since ∧ since ≤ c.clock
  | .cleared checked, c | .marked checked _, c => checked ≤ c.clock
  | .sent _ sentAt _, c => sentAt ≤ c.clock
  | .recording _ sentAt _, c => sentAt ≤ c.start
  | _, _ => True

def Logs (c : Scene Row GitHub) (row : AuditRow) : Prop :=
  ∃ id, c.writes = AList.insert (.audit id) row ∅

inductive Advance (tenantId : Uuid) (cooldown : Int) :
    Stage → Op Row DispatchRequest → Scene Row GitHub → Stage → Scene Row GitHub → Prop
  | stay {g o c c'} (hop : ∀ req, o ≠ .request req) (hcommitted : c'.committed = c.committed) :
      Advance tenantId cooldown g o c g c'
  | look {c} : Advance tenantId cooldown .asking .begin c (.checking c.clock) c.begun
  | refuse {c since} (hrecent : recent tenantId cooldown c.committed since = true) :
      Advance tenantId cooldown (.checking since) .snapshot c .refused c
  | clear {c since} (hrecent : recent tenantId cooldown c.committed since = false) :
      Advance tenantId cooldown (.checking since) .snapshot c (.cleared since) c
  | mark {c checked row} (hrow : Logs c row) (hcounts : countsAsDeploy tenantId row = true) :
      Advance tenantId cooldown (.cleared checked) .commit c (.marked checked row.createdAt)
        c.committing
  | send {c checked marker req upstream'} :
      Advance tenantId cooldown (.marked checked marker) (.request req) c
        (.sent marker c.clock (landed c.upstream.next)) { c with upstream := upstream' }
  | reopen {c marker sentAt landed} :
      Advance tenantId cooldown (.sent marker sentAt landed) .begin c
        (.recording marker sentAt landed) c.begun
  | record {c marker sentAt landed row} (hrow : Logs c row)
      (hcounts : countsAsDeploy tenantId row = !recordsFailure row)
      (hlanded : landed = true → recordsFailure row = false) (hsent : sentAt ≤ row.createdAt) :
      Advance tenantId cooldown (.recording marker sentAt landed) .commit c
        (.ended marker row.createdAt (recordsFailure row)) c.committing

structure Move (tenantId : Uuid) (cooldown : Int) (g : Stage) (o : Op Row DispatchRequest)
    (c : Scene Row GitHub) (g' : Stage) (c' : Scene Row GitHub) : Prop where
  noted : g' = note tenantId cooldown g o c
  known : Known g' c'
  advance : Advance tenantId cooldown g o c g' c'

def script (tenantId : Uuid) (cooldown : Int) : Script Row DispatchRequest GitHub Stage where
  known := Known
  move := Move tenantId cooldown

section Follows

variable {tenantId : Uuid} {cooldown : Int} {g : Stage} {row : AuditRow}

theorem mem_auditsOf {db : AList Row} :
    row ∈ auditsOf db ↔ ∃ id, db.lookup (.audit id) = some row := by
  constructor
  · intro hmem
    obtain ⟨key, -, hkey⟩ := mem_filterMap.mp hmem
    cases key <;> simp at hkey
    exact ⟨_, hkey⟩
  · rintro ⟨id, hid⟩
    have hmem : Key.audit id ∈ db := lookup_isSome.mp (by simp [hid])
    exact mem_filterMap.mpr ⟨.audit id, mem_keys.mp hmem, hid⟩

def Stage.blind : Stage → Prop
  | .checking _ => False
  | _ => True

variable {c : Scene Row GitHub}

theorem known_of_acts {o : Op Row DispatchRequest} {c' : Scene Row GitHub}
    {answer : o.Result DispatchAnswer} {K : Key → Prop} (hspares : o.Spares K false)
    (hacts : o.Acts deploySchema c answer c') (hknown : Known g c) : Known g c' := by
  have hclock : c'.clock = c.clock := hacts.clock
  have hstart : c'.start = c.start := Op.Acts.start hspares hacts
  have hiff : Known g c' ↔ Known g c := by cases g <;> simp [Known, hclock, hstart]
  exact hiff.mpr hknown

theorem passes (hblind : g.blind) :
    (script tenantId cooldown).PassesAt deploySchema (fun _ => False) g := by
  intro o c answer c' hknown hspares hacts
  have hnoted : g = note tenantId cooldown g o c := by
    cases o <;> first | simp [Op.Spares] at hspares; done | (cases g <;> first | rfl | exact hblind.elim)
  have hcommitted : c'.committed = c.committed := by
    refine hacts.committed ?_
    rintro rfl
    simp [Op.Spares] at hspares
  refine ⟨hnoted, known_of_acts hspares hacts hknown, .stay ?_ hcommitted⟩
  rintro req rfl
  exact hspares

theorem moves_rollback (hknown : Known g c) :
    Move tenantId cooldown g .rollback c g c.dropping := by
  refine ⟨?_, ?_, .stay (by simp) rfl⟩
  · cases g <;> rfl
  · cases g <;> exact hknown

theorem moves_commit_nothing (hknown : Known g c) (hwrites : c.writes = ∅) :
    Move tenantId cooldown g .commit c g c.committing := by
  refine ⟨?_, ?_, .stay (by simp) ?_⟩
  · cases g <;> simp only [note, hwrites] <;> rfl
  · cases g <;> exact hknown
  · rw [Scene.committing, Scene.seen, hwrites, empty_union]

variable {E : ApiError → AList Row → Stage → Prop}

theorem follows_recentExternalDeploy {Q : Option Instant → AList Row → Stage → Prop}
    (hsome : ∀ last, Q (some last) ∅ .refused) (hnone : ∀ checked, Q none ∅ (.cleared checked)) :
    Follows deploySchema (script tenantId cooldown)
      (recentExternalDeploy tenantId cooldown) ∅ .asking Q E := by
  refine .inTransaction fun c _ _ =>
    ⟨.checking c.clock, ⟨rfl, ⟨rfl, Int.le_refl _⟩, .look⟩, ?_⟩
  generalize c.clock = since
  refine .bind (.ask ?_)
  rintro d now d' hknown hwrites ⟨rfl, rfl⟩
  refine ⟨.checking since, ⟨rfl, hknown, .stay (by simp) rfl⟩, ?_⟩
  rw [hwrites, hknown.1]
  refine .bind (.ask ?_)
  rintro f seen f' hknown' hwrites' ⟨rfl, rfl⟩
  have hseen : f'.seen = f'.committed := by rw [Scene.seen, hwrites', empty_union]
  have hnoted := show note tenantId cooldown (.checking since) .snapshot f' =
    if recent tenantId cooldown f'.seen since then .refused else .cleared since from rfl
  rw [hwrites']
  by_cases hrecent : recent tenantId cooldown f'.seen since = true
  · rw [if_pos hrecent] at hnoted
    refine ⟨.refused, ⟨hnoted.symm, trivial, .refuse (hseen ▸ hrecent)⟩, .pure ?_⟩
    intro x hknown hwrites
    refine ⟨.refused, moves_commit_nothing hknown hwrites, ?_⟩
    cases hmax : (((auditsOf f'.seen).filter fun row => countsAsDeploy tenantId row &&
        since - seconds cooldown < row.createdAt).map (·.createdAt)).max? with
    | some last => exact hsome last
    | none =>
      simp only [max?_eq_none_iff, map_eq_nil_iff, filter_eq_nil_iff] at hmax
      obtain ⟨row, hmem, hrow⟩ := any_eq_true.mp hrecent
      exact absurd hrow (hmax row hmem)
  · rw [if_neg hrecent] at hnoted
    refine ⟨.cleared since, ⟨hnoted.symm, hknown'.2, .clear ?_⟩, .pure ?_⟩
    · rw [← hseen]
      simpa using hrecent
    intro x hknown hwrites
    refine ⟨.cleared since, moves_commit_nothing hknown hwrites, ?_⟩
    have hnil : ((auditsOf f'.seen).filter fun row => countsAsDeploy tenantId row &&
        since - seconds cooldown < row.createdAt) = [] := by
      refine filter_eq_nil_iff.mpr fun row hmem hrow => hrecent ?_
      exact any_eq_true.mpr ⟨row, hmem, hrow⟩
    rw [hnil]
    exact hnone since

variable {slug actor : String} {outcome : DeployOutcome} {detail : Json}
  {Q : Unit → AList Row → Stage → Prop}

theorem follows_auditExternalDeploy {g' : Stage}
    (hbegin : ∀ c, Known g c → Move tenantId cooldown g .begin c g' c.begun) (hblind : g'.blind)
    (hcommit : ∀ d c id, Known g' d → Known g' c → c.writes =
      AList.insert (.audit id) (deployAudit id tenantId slug actor outcome detail d.start) ∅ →
      ∃ g'', Move tenantId cooldown g' .commit c g'' c.committing ∧ Q () ∅ g'')
    (hE : ∀ e, E (.database (.constraint e)) ∅ g') :
    Follows deploySchema (script tenantId cooldown)
      (auditExternalDeploy tenantId slug actor outcome detail) ∅ g Q E := by
  have hdrop {e : ConstraintError} {w : AList Row} :
      (script tenantId cooldown).Drops g' w (E (.database (.constraint e)) ∅) :=
    fun c hknown _ => ⟨g', moves_rollback hknown, hE e⟩
  refine .inTransaction fun c hknown _ => ⟨g', hbegin c hknown, ?_⟩
  refine .bind (.fresh (passes hblind) fun id => ?_)
  refine .bind (.sqlNow (passes hblind) fun d hd _ => ?_)
  refine .bind (.insert_of_passes (passes hblind) (fun h => h) ?_ ?_ ?_)
  · intro _ _ _ _
    exact .ensure (fun _ x hx hwrites => hcommit d x id hd hx hwrites) (by simp)
  · exact .ensure (by simp) fun _ => hdrop
  · exact hdrop

variable {targetSha : String} {desiredVersion : Option String} {repo : String} {id : Uuid}
  {marker sentAt : Instant} {arrived : Bool}

theorem textAt_requested :
    (withOutcome outcome (Routes.requestedDetail repo desiredVersion targetSha)).textAt "outcome" =
      some outcome.asStr := rfl

theorem counts_deployAudit {now : Instant}
    (htext : (withOutcome outcome detail).textAt "outcome" = some outcome.asStr) :
    countsAsDeploy tenantId (deployAudit id tenantId slug actor outcome detail now) =
      !recordsFailure (deployAudit id tenantId slug actor outcome detail now) := by
  simp only [countsAsDeploy, recordsFailure, deployAudit, htext]
  cases outcome <;> simp [DeployOutcome.asStr]

theorem auditsOf_singleton : auditsOf (AList.insert (.audit id) row ∅) = [row] := by
  have hlookup : lookup (.audit id) (insert (.audit id) row (∅ : AList Row)) = some row :=
    lookup_insert _
  simp only [auditsOf, keys_insert, keys_empty, erase_nil, filterMap_cons, hlookup, filterMap_nil]

theorem follows_marker {checked : Instant}
    (htext : (withOutcome .requested detail).textAt "outcome" = some "requested")
    (hQ : ∀ marker, Q () ∅ (.marked checked marker))
    (hE : ∀ e, E (.database (.constraint e)) ∅ (.cleared checked)) :
    Follows deploySchema (script tenantId cooldown)
      (auditExternalDeploy tenantId slug actor .requested detail) ∅ (.cleared checked) Q E := by
  refine follows_auditExternalDeploy (fun c hknown => ⟨rfl, hknown, .stay (by simp) rfl⟩) trivial
    (fun d c id _ hknown hwrites => ?_) hE
  refine ⟨.marked checked d.start, ⟨?_, hknown, .mark ⟨id, hwrites⟩ ?_⟩, hQ d.start⟩
  · simp only [note, hwrites, auditsOf_singleton]
    rfl
  · rw [counts_deployAudit htext]
    simp [recordsFailure, deployAudit, htext]

theorem follows_outcome (htext : (withOutcome outcome detail).textAt "outcome" = some outcome.asStr)
    (harrived : arrived = true → outcome = .accepted ∨ outcome = .unknown)
    (hQ : ∀ time failed, Q () ∅ (.ended marker time failed))
    (hE : ∀ e, E (.database (.constraint e)) ∅ (.recording marker sentAt arrived)) :
    Follows deploySchema (script tenantId cooldown)
      (auditExternalDeploy tenantId slug actor outcome detail) ∅ (.sent marker sentAt arrived)
      Q E := by
  refine follows_auditExternalDeploy (fun c hknown => ⟨rfl, hknown, .reopen⟩) trivial
    (fun d c id hd hknown hwrites => ?_) hE
  refine ⟨.ended marker d.start _, ⟨?_, trivial, .record ⟨id, hwrites⟩ (counts_deployAudit htext) ?_ hd⟩,
    hQ d.start _⟩
  · simp only [note, hwrites, auditsOf_singleton]
    rfl
  · intro h
    obtain rfl | rfl := harrived h <;> simp [recordsFailure, deployAudit, htext, DeployOutcome.asStr]

theorem follows_recordDispatch {answer : DispatchAnswer}
    (harrived : arrived = true → landed answer = true)
    (hQ : ∀ time failed, Q () ∅ (.ended marker time failed))
    (hE : ∀ e g, (∀ ago, e ≠ Routes.recentDispatch ago) → E e ∅ g) :
    Follows deploySchema (script tenantId cooldown)
      (Routes.recordDispatch tenantId slug actor
        (Routes.requestedDetail repo desiredVersion targetSha) answer) ∅
      (.sent marker sentAt arrived) Q E := by
  have hdatabase (e : ConstraintError) (g : Stage) : E (.database (.constraint e)) ∅ g :=
    hE _ g (by simp [recentDispatch])
  cases answer with
  | timeout =>
    refine .bind (follows_outcome textAt_requested (by simp) (fun _ _ => ?_)
      fun e => hdatabase e _)
    exact .throw (hE _ _ (by simp [recentDispatch]))
  | transportError =>
    refine .bind (follows_outcome textAt_requested (fun h => ?_) (fun _ _ => ?_)
      fun e => hdatabase e _)
    · simp [landed] at harrived
      simp [harrived] at h
    · exact .throw (hE _ _ (by simp [recentDispatch]))
  | status code =>
    simp only [recordDispatch]
    split_ifs with hcode
    · exact follows_outcome textAt_requested (by simp) hQ fun e => hdatabase e _
    · refine .bind (follows_outcome rfl (fun h => ?_) (fun _ _ => ?_)
        fun e => hdatabase e _)
      · exact absurd (by simpa [landed] using harrived h) hcode
      · exact .throw (hE _ _ (by simp [recentDispatch]))

theorem follows_triggerEcosystemDeploy {cfg : DeployConfig}
    (hpositive : 0 < cfg.githubDeployCooldownSeconds) :
    (Routes.triggerEcosystemDeploy cfg tenantId slug actor desiredVersion).run.Follows deploySchema
      (script tenantId cfg.githubDeployCooldownSeconds) ∅ .asking
      fun answer _ g => ∀ ago, answer = .error (Routes.recentDispatch ago) → g = .refused := by
  have herror (e : ApiError) (g : Stage) (he : ∀ ago, e ≠ recentDispatch ago) :
      ∀ ago, (.error e : Except ApiError DispatchedJob) = .error (recentDispatch ago) →
        g = .refused := by
    intro ago heq
    exact absurd (Except.error.inj heq) (he ago)
  refine follows_run (.bind (.require (fun targetSha _ => ?_) fun e he => ?_))
  · refine .bind (.whenever (fun _ => ?_) fun h => absurd hpositive h)
    refine .bind (follows_recentExternalDeploy (fun last => ?_) fun checked => ?_)
    · have hblind : Stage.refused.blind := trivial
      refine .bind (.utcNow (passes hblind) fun now => ?_)
      exact .throw fun _ _ => rfl
    refine .forSome (by simp) fun _ => ?_
    refine .bind (.okOr (fun credentials _ => ?_) fun _ => ?_)
    · obtain ⟨token, repo⟩ := credentials
      refine .bind (follows_marker textAt_requested (fun marker => ?_) fun e =>
        herror _ _ (by simp [recentDispatch]))
      refine .bind (.request fun c answer upstream' hknown _ hserved => ?_)
      refine ⟨.sent marker c.clock (landed c.upstream.next), ⟨rfl, Int.le_refl _, .send⟩, ?_⟩
      refine .bind (follows_recordDispatch (fun harrived => ?_) (fun time failed => ?_)
        fun e g he => herror e g he)
      · obtain hanswered | ⟨rfl, -⟩ := hserved
        · obtain rfl := (Prod.mk.inj hanswered).1
          exact harrived
        · rfl
      · have hblind : (Stage.ended marker time failed).blind := trivial
        refine .bind (.utcNow (passes hblind) fun _ => ?_)
        refine .bind (.utcNow (passes hblind) fun _ => ?_)
        refine .bind (.utcNow (passes hblind) fun _ => ?_)
        exact .pure (by simp)
    · exact herror _ _ (by simp [recentDispatch])
  · refine herror e _ fun ago heq => ?_
    subst heq
    unfold externalDeployTarget at he
    split at he
    · cases he
    · dsimp only at he
      split_ifs at he
      simp [recentDispatch] at he

end Follows

/-- Only deploys of the one tenant are requested. What becomes of a dispatch is GitHub's answer, a
timeout included. -/
def onlyFor (tenantId : Uuid) (_ : DeployState) (a : Action Key DeployCall) : Prop :=
  (∀ sid call, a = .start sid call → call.tenantId = tenantId) ∧
    ∀ sid choice, a = .run sid choice → choice.delivery = .answered

def dispatchedAt (e : DeployStep) : Option (Instant × Bool) :=
  match e.action with
  | .run sid _ =>
    match e.does sid with
    | some (.request _, c) => some (c.clock, landed c.upstream.next)
    | _ => none
  | _ => none

section Conditions

variable (tenantId : Uuid) (cooldown : Int) (earlier : List DeployStep) (e : DeployStep)

/-- A dispatch comes a cooldown after every earlier one that landed. -/
def Spaced : Prop :=
  ∀ time arrived, dispatchedAt e = some (time, arrived) →
    ∀ d ∈ earlier, ∀ before, dispatchedAt d = some (before, true) → before + seconds cooldown ≤ time

/-- A request looks only while no other one is between its check and its dispatch, and not while a
dispatch without an outcome is in the window with its first row before it. -/
def Undisturbed : Prop :=
  ∀ sid c, e.does sid = some (.snapshot, c) → ∀ other, other ≠ sid →
    (∀ tx, e.before.InFlight other tx → (stage tenantId cooldown other earlier).pending = none) ∧
      ∀ marker sentAt, stage tenantId cooldown other earlier = .sent marker sentAt true ∨
        stage tenantId cooldown other earlier = .recording marker sentAt true →
        marker ≤ c.start - seconds cooldown → sentAt ≤ c.start - seconds cooldown

/-- A request looks only while a failed attempt whose first row is in the window is not alone there. -/
def Unmarked : Prop :=
  ∀ sid c, e.does sid = some (.snapshot, c) → ∀ other, other ≠ sid → ∀ marker outcome,
    stage tenantId cooldown other earlier = .ended marker outcome true →
    c.start - seconds cooldown < marker →
    ∃ standing, standing ≠ sid ∧
      (stage tenantId cooldown standing earlier).standsAfter (c.start - seconds cooldown)

end Conditions

/-- The request looked while an attempt that has not failed stood in the window. -/
def Barred (tenantId : Uuid) (cooldown : Int) (history : List DeployStep) (sid : Nat) : Prop :=
  ∃ earlier e c, e :: earlier <:+ history ∧ e.does sid = some (.snapshot, c) ∧
    ∃ other, other ≠ sid ∧
      (stage tenantId cooldown other earlier).standsAfter (c.start - seconds cooldown)

def LoggedAt (tenantId : Uuid) (db : AList Row) (time : Instant) : Prop :=
  ∃ id row, db.lookup (.audit id) = some row ∧ countsAsDeploy tenantId row = true ∧
    row.createdAt = time

def Ledger (tenantId : Uuid) (db : AList Row) (γ : Nat → Stage) : Prop :=
  ∀ time, LoggedAt tenantId db time ↔ ∃ sid, time ∈ (γ sid).counted

section Ledger

variable {tenantId : Uuid} {cooldown : Int} {γ : Nat → Stage} {sid : Nat} {g : Stage}
  {c c' : Scene Row GitHub} {o : Op Row DispatchRequest} {db : AList Row} {now time : Instant}

theorem loggedAt_of_recent (hrecent : recent tenantId cooldown db now = true) :
    ∃ time, LoggedAt tenantId db time ∧ now - seconds cooldown < time := by
  obtain ⟨row, hmem, hrow⟩ := any_eq_true.mp hrecent
  simp only [Bool.and_eq_true, decide_eq_true_eq] at hrow
  obtain ⟨id, hid⟩ := mem_auditsOf.mp hmem
  exact ⟨row.createdAt, ⟨id, row, hid, hrow.1, rfl⟩, hrow.2⟩

theorem le_of_not_recent (hrecent : recent tenantId cooldown db now = false)
    (hlogged : LoggedAt tenantId db time) : time ≤ now - seconds cooldown := by
  obtain ⟨id, row, hid, hcounts, rfl⟩ := hlogged
  have hrow := any_eq_false.mp hrecent row (mem_auditsOf.mpr ⟨id, hid⟩)
  simpa [hcounts] using hrow

theorem loggedAt_committing {row : AuditRow} {id : Uuid}
    (hwrites : c.writes = AList.insert (.audit id) row ∅)
    (hfresh : c.committed.lookup (.audit id) = none) :
    LoggedAt tenantId c.committing.committed time ↔ LoggedAt tenantId c.committed time ∨
      countsAsDeploy tenantId row = true ∧ row.createdAt = time := by
  have hself : c.committing.committed.lookup (.audit id) = some row := by
    rw [Scene.lookup_committing, hwrites, lookup_insert, Option.some_or]
  have hother {other : Uuid} (hne : other ≠ id) :
      c.committing.committed.lookup (.audit other) = c.committed.lookup (.audit other) := by
    rw [Scene.lookup_committing, hwrites, lookup_insert_ne (by simpa using hne),
      lookup_empty, Option.none_or]
  constructor
  · rintro ⟨other, found, hfound, hcounts, rfl⟩
    by_cases heq : other = id
    · subst heq
      obtain rfl := Option.some.inj (hself.symm.trans hfound)
      exact .inr ⟨hcounts, rfl⟩
    · exact .inl ⟨other, found, hother heq ▸ hfound, hcounts, rfl⟩
  · rintro (⟨other, found, hfound, hcounts, rfl⟩ | ⟨hcounts, rfl⟩)
    · have hne : other ≠ id := by
        rintro rfl
        simp [hfresh] at hfound
      exact ⟨other, found, (hother hne).trans hfound, hcounts, rfl⟩
    · exact ⟨id, row, hself, hcounts, rfl⟩

theorem exists_counted_update {P : Prop} (hg : time ∈ g.counted ↔ time ∈ (γ sid).counted ∨ P) :
    (∃ other, time ∈ (update γ sid g other).counted) ↔
      (∃ other, time ∈ (γ other).counted) ∨ P := by
  constructor
  · rintro ⟨other, hmem⟩
    by_cases heq : other = sid
    · rw [heq, update_self] at hmem
      exact (hg.mp hmem).imp_left fun h => ⟨sid, h⟩
    · rw [update_of_ne heq] at hmem
      exact .inl ⟨other, hmem⟩
  · rintro (⟨other, hmem⟩ | hP)
    · by_cases heq : other = sid
      · refine ⟨sid, ?_⟩
        rw [update_self]
        exact hg.mpr (.inl (heq ▸ hmem))
      · exact ⟨other, by rwa [update_of_ne heq]⟩
    · exact ⟨sid, by rw [update_self]; exact hg.mpr (.inr hP)⟩

theorem Ledger.advance (hledger : Ledger tenantId c.committed γ)
    (hfresh : o = .commit → ∀ id row, c.writes.lookup (.audit id) = some row →
      c.committed.lookup (.audit id) = none)
    (hadvance : Advance tenantId cooldown (γ sid) o c g c') :
    Ledger tenantId c'.committed (update γ sid g) := by
  intro time
  generalize hold : γ sid = old at hadvance
  have hquiet {new : Stage} (hsame : new.counted = old.counted) :
      LoggedAt tenantId c.committed time ↔
        ∃ other, time ∈ (update γ sid new other).counted := by
    rw [exists_counted_update (P := False) (by rw [hsame, hold, or_false]), or_false]
    exact hledger time
  have hlogs {new : Stage} {row : AuditRow} (ho : o = .commit) (hrow : Logs c row)
      (hnew : time ∈ new.counted ↔ time ∈ (γ sid).counted ∨
        countsAsDeploy tenantId row = true ∧ row.createdAt = time) :
      LoggedAt tenantId c.committing.committed time ↔
        ∃ other, time ∈ (update γ sid new other).counted := by
    obtain ⟨id, hwrites⟩ := hrow
    rw [loggedAt_committing hwrites (hfresh ho id row (by rw [hwrites, lookup_insert])),
      exists_counted_update hnew, hledger time]
  cases hadvance with
  | stay _ hcommitted =>
    rw [hcommitted]
    exact hquiet rfl
  | look | refuse | clear | send | reopen => exact hquiet rfl
  | mark hrow hcounts =>
    refine hlogs rfl hrow ?_
    simp [hold, Stage.counted, hcounts, eq_comm]
  | @record _ _ _ _ row hrow hcounts =>
    refine hlogs rfl hrow ?_
    rw [hold, hcounts]
    cases hfailed : recordsFailure row <;> simp [Stage.counted, eq_comm]

end Ledger

def Stage.remembers (time : Instant) : Stage → Prop
  | .sent _ sentAt arrived | .recording _ sentAt arrived => sentAt = time ∧ arrived = true
  | .ended _ outcome failed => time ≤ outcome ∧ failed = false
  | _ => False

/-- At most one request is between its check and its dispatch, and nothing has landed within a cooldown
before that check. -/
structure Apart (cooldown : Int) (history : List DeployStep) (s : DeployState) (γ : Nat → Stage) :
    Prop where
  single : ∀ sid other tx tx', s.InFlight sid tx → s.InFlight other tx' → (γ sid).pending ≠ none →
    (γ other).pending ≠ none → sid = other
  since : ∀ sid tx checked, s.InFlight sid tx → (γ sid).pending = some checked →
    ∀ d ∈ history, ∀ time, dispatchedAt d = some (time, true) → time + seconds cooldown ≤ checked
  spaced : ∀ earlier e, e :: earlier <:+ history → Spaced cooldown earlier e

section Apart

variable {tenantId : Uuid} {cooldown : Int} {history : List DeployStep} {s t : DeployState}
  {γ γ' : Nat → Stage} {e : DeployStep} {o : Op Row DispatchRequest} {c : Scene Row GitHub}
  {time : Instant} {tx : Txn Row}

theorem Stage.remembers.advance {g g' : Stage} {c' : Scene Row GitHub}
    (hremembers : g.remembers time) (hadvance : Advance tenantId cooldown g o c g' c') :
    g'.remembers time := by
  cases hadvance with
  | stay => exact hremembers
  | look | refuse | clear | mark | send => exact hremembers.elim
  | reopen => exact hremembers
  | record _ _ hlanded hsent =>
    obtain ⟨rfl, harrived⟩ := hremembers
    exact ⟨hsent, hlanded harrived⟩

theorem dispatchedAt_run {sid : Nat} {choice : Choice Key} {call : DeployCall}
    {next : o.Result DispatchAnswer →
      Prog Row DispatchRequest DispatchAnswer (Except ApiError DispatchedJob)}
    (hsession : s.sessions sid = some ⟨call, some (.op o next), tx⟩) {sent : Instant × Bool}
    (hsent : dispatchedAt ⟨s, .run sid choice, t⟩ = some sent) :
    (∃ req, o = .request req) ∧ sent = (s.clock, landed s.upstream.next) := by
  have hdoes : Event.does ⟨s, .run sid choice, t⟩ sid = some (o, .of sid s.toShared tx) :=
    Event.does_run hsession
  simp only [dispatchedAt, hdoes] at hsent
  cases o with
  | request req => exact ⟨⟨req, rfl⟩, (Option.some.inj hsent).symm⟩
  | _ => cases hsent

theorem Apart.cons (hapart : Apart cooldown history s γ) (he : dispatchedAt e = none)
    (hpending : ∀ sid tx, t.InFlight sid tx → (γ' sid).pending ≠ none →
      (∃ tx', s.InFlight sid tx') ∧ (γ sid).pending = (γ' sid).pending) :
    Apart cooldown (e :: history) t γ' where
  single sid other tx tx' hsid hother hpsid hpother := by
    obtain ⟨⟨tx₁, hsid'⟩, hsame⟩ := hpending sid tx hsid hpsid
    obtain ⟨⟨tx₂, hother'⟩, hsame'⟩ := hpending other tx' hother hpother
    exact hapart.single sid other tx₁ tx₂ hsid' hother' (hsame ▸ hpsid) (hsame' ▸ hpother)
  since sid tx checked hsid hchecked d hd time htime := by
    obtain ⟨⟨tx', hsid'⟩, hsame⟩ := hpending sid tx hsid (by simp [hchecked])
    obtain rfl | hmem := mem_cons.mp hd
    · simp [he] at htime
    · exact hapart.since sid tx' checked hsid' (hsame.trans hchecked) d hmem time htime
  spaced earlier e' hsuffix := by
    obtain heq | hsuffix := suffix_cons_iff.mp hsuffix
    · obtain ⟨rfl, rfl⟩ := cons.inj heq
      intro time arrived hsent
      simp [he] at hsent
    · exact hapart.spaced earlier e' hsuffix

theorem Apart.send {sid : Nat} {checked : Instant} {arrived : Bool}
    (hapart : Apart cooldown history s γ) (hflight : s.InFlight sid tx)
    (hchecked : (γ sid).pending = some checked) (hclock : checked ≤ time)
    (he : dispatchedAt e = some (time, arrived))
    (hpending : ∀ other tx, t.InFlight other tx → (γ' other).pending ≠ none →
      other ≠ sid ∧ (∃ tx', s.InFlight other tx') ∧ (γ other).pending = (γ' other).pending) :
    Apart cooldown (e :: history) t γ' := by
  have hnone (other : Nat) (tx' : Txn Row) (hother : t.InFlight other tx') :
      (γ' other).pending = none := by
    by_contra hsome
    obtain ⟨hne, ⟨tx₁, hother'⟩, hsame⟩ := hpending other tx' hother hsome
    exact hne (hapart.single other sid tx₁ tx hother' hflight (hsame ▸ hsome) (by simp [hchecked]))
  refine ⟨fun other _ tx' _ hother _ hsome _ => absurd (hnone other tx' hother) hsome,
    fun other tx' checked' hother hsome => ?_, fun earlier e' hsuffix => ?_⟩
  · simp [hnone other tx' hother] at hsome
  · obtain heq | hsuffix := suffix_cons_iff.mp hsuffix
    · obtain ⟨rfl, rfl⟩ := cons.inj heq
      intro time' arrived' hsent d hd before hbefore
      obtain ⟨rfl, rfl⟩ := Prod.mk.inj (Option.some.inj (he.symm.trans hsent))
      exact Int.le_trans (hapart.since sid tx checked hflight hchecked d hd before hbefore) hclock
    · exact hapart.spaced earlier e' hsuffix

/-- A check that finds nothing has nothing that landed in its window, if nobody disturbs it. -/
theorem landed_before_check {sid : Nat} {since : Instant}
    (hrecalled : Recalled (note tenantId cooldown) .asking id history s γ)
    (hledger : Ledger tenantId c.committed γ) (hstart : c.start = since)
    (hrecent : recent tenantId cooldown c.committed since = false)
    (hundisturbed : Undisturbed tenantId cooldown history e)
    (hdoes : e.does sid = some (.snapshot, c)) (hsid : γ sid = .checking since) {other : Nat}
    (hremembers : (γ other).remembers time) : time + seconds cooldown ≤ since := by
  have hne : other ≠ sid := by
    rintro rfl
    simp [hsid, Stage.remembers] at hremembers
  have hstage : stage tenantId cooldown other history = γ other := (hrecalled.view_eq other).symm
  have hbefore {stamp : Instant} (hstamp : stamp ∈ (γ other).counted) :
      stamp ≤ since - seconds cooldown :=
    le_of_not_recent hrecent ((hledger stamp).mpr ⟨other, hstamp⟩)
  have hsent := (hundisturbed sid c hdoes other hne).2
  rw [hstage, hstart] at hsent
  refine Int.add_le_of_le_sub_right ?_
  cases hother : γ other with
  | sent marker sentAt arrived =>
    rw [hother] at hremembers hbefore hsent
    obtain ⟨rfl, rfl⟩ := hremembers
    exact hsent marker sentAt (.inl rfl) (hbefore (by simp [Stage.counted]))
  | recording marker sentAt arrived =>
    rw [hother] at hremembers hbefore hsent
    obtain ⟨rfl, rfl⟩ := hremembers
    exact hsent marker sentAt (.inr rfl) (hbefore (by simp [Stage.counted]))
  | ended marker outcome failed =>
    rw [hother] at hremembers hbefore
    obtain ⟨hle, rfl⟩ := hremembers
    exact Int.le_trans hle (hbefore (by simp [Stage.counted]))
  | _ =>
    rw [hother] at hremembers
    exact hremembers.elim

end Apart

def Found (tenantId : Uuid) (cooldown : Int) (history : List DeployStep) (sid : Nat) : Prop :=
  ∃ earlier e c, e :: earlier <:+ history ∧ e.does sid = some (.snapshot, c) ∧
    ∃ other, other ≠ sid ∧ ∃ time ∈ (stage tenantId cooldown other earlier).counted,
      c.start - seconds cooldown < time

structure Holds (tenantId : Uuid) (cooldown : Int) (history : List DeployStep) (s : DeployState)
    (γ : Nat → Stage) : Prop where
  recalled : Recalled (note tenantId cooldown) .asking id history s γ
  sound : protocol.Holds s
  known : ∀ sid tx, s.InFlight sid tx → Known (γ sid) (.of sid s.toShared tx)
  ledger : Ledger tenantId s.committed γ
  dispatched : ∀ d ∈ history, ∀ time, dispatchedAt d = some (time, true) →
    ∃ sid, (γ sid).remembers time
  refusals : ∀ sid, γ sid = .refused → Found tenantId cooldown history sid
  apart : (∀ earlier e, e :: earlier <:+ history → Undisturbed tenantId cooldown earlier e) →
    Apart cooldown history s γ

variable {tenantId : Uuid} {cooldown : Int} {cfg : DeployConfig} {history : List DeployStep}
  {s t : DeployState} {γ γ' : Nat → Stage}

variable {sid : Nat} {e : DeployStep} {tx : Txn Row} {c : Scene Row GitHub}
  {answer : DispatchAnswer}

theorem Found.cons (hfound : Found tenantId cooldown history sid) :
    Found tenantId cooldown (e :: history) sid := by
  obtain ⟨earlier, e', c, hsuffix, hrest⟩ := hfound
  exact ⟨earlier, e', c, hsuffix.trans (suffix_cons _ _), hrest⟩

theorem Known.later {g : Stage} {sh sh' : Shared Row Index GitHub}
    (hknown : Known g (.of sid sh tx)) (hclock : sh.clock ≤ sh'.clock) :
    Known g (.of sid sh' tx) := by
  cases g with
  | checking since => exact ⟨hknown.1, Int.le_trans hknown.2 hclock⟩
  | cleared | marked | sent => exact Int.le_trans hknown hclock
  | recording => exact hknown
  | _ => trivial

theorem Apart.clear {since : Instant} (hI : Holds tenantId cooldown history s γ)
    (hapart : Apart cooldown history s γ) (hc : c.committed = s.committed)
    (hstart : c.start = since) (hrecent : recent tenantId cooldown c.committed since = false)
    (hundisturbed : Undisturbed tenantId cooldown history e)
    (hdoes : e.does sid = some (.snapshot, c)) (hbefore : e.before = s)
    (hsid : γ sid = .checking since) (he : dispatchedAt e = none)
    (hflight : ∀ other tx, t.InFlight other tx → other ≠ sid → s.InFlight other tx) :
    Apart cooldown (e :: history) t (update γ sid (.cleared since)) := by
  have hnone (other : Nat) (tx : Txn Row) (hne : other ≠ sid) (hother : t.InFlight other tx) :
      (γ other).pending = none := by
    have hfree := (hundisturbed sid c hdoes other hne).1 tx (hbefore ▸ hflight other tx hother hne)
    rwa [stage, ← hI.recalled.view_eq other] at hfree
  have honly (other : Nat) (tx : Txn Row) (hother : t.InFlight other tx)
      (hsome : (update γ sid (.cleared since) other).pending ≠ none) : other = sid := by
    by_contra hne
    rw [update_of_ne hne] at hsome
    exact hsome (hnone other tx hne hother)
  refine ⟨fun one other tx tx' hone hother hpone hpother => ?_,
    fun other tx checked hother hchecked d hd time htime => ?_, fun earlier e' hsuffix => ?_⟩
  · rw [honly one tx hone hpone, honly other tx' hother hpother]
  · obtain rfl := honly other tx hother (by simp [hchecked])
    rw [update_self] at hchecked
    obtain rfl : since = checked := Option.some.inj hchecked
    obtain rfl | hmem := mem_cons.mp hd
    · simp [he] at htime
    · obtain ⟨sender, hsender⟩ := hI.dispatched d hmem time htime
      exact landed_before_check hI.recalled (hc ▸ hI.ledger) hstart hrecent hundisturbed hdoes hsid
        hsender
  · obtain heq | hsuffix := suffix_cons_iff.mp hsuffix
    · obtain ⟨rfl, rfl⟩ := cons.inj heq
      intro time arrived hsent
      simp [he] at hsent
    · exact hapart.spaced earlier e' hsuffix

section Steps

variable {sid : Nat} {choice : Choice Key} {call : DeployCall} {o : Op Row DispatchRequest}
  {next : o.Result DispatchAnswer →
    Prog Row DispatchRequest DispatchAnswer (Except ApiError DispatchedJob)}
  {tx : Txn Row} {g : Stage} {c' : Scene Row GitHub} (hI : Holds tenantId cooldown history s γ)
  (hsession : s.sessions sid = some ⟨call, some (.op o next), tx⟩)
  (hadvance : Advance tenantId cooldown (γ sid) o (.of sid s.toShared tx) g c')
include hI hsession hadvance

theorem Holds.dispatched_run :
    ∀ d ∈ ⟨s, .run sid choice, t⟩ :: history, ∀ time, dispatchedAt d = some (time, true) →
      ∃ other, (update γ sid g other).remembers time := by
  intro d hd time htime
  obtain rfl | hmem := mem_cons.mp hd
  · obtain ⟨⟨req, rfl⟩, hsent⟩ := dispatchedAt_run hsession htime
    obtain ⟨rfl, harrived⟩ := Prod.mk.inj hsent
    refine ⟨sid, ?_⟩
    rw [update_self]
    generalize γ sid = old at hadvance
    cases hadvance with
    | stay hop => exact absurd rfl (hop req)
    | send => exact ⟨rfl, harrived.symm⟩
  · obtain ⟨other, hother⟩ := hI.dispatched d hmem time htime
    refine ⟨other, ?_⟩
    by_cases heq : other = sid
    · subst heq
      rw [update_self]
      exact hother.advance hadvance
    · rwa [update_of_ne heq]

theorem Holds.refusals_run {other : Nat} (hother : update γ sid g other = .refused) :
    Found tenantId cooldown (⟨s, .run sid choice, t⟩ :: history) other := by
  by_cases heq : other = sid
  · subst heq
    rw [update_self] at hother
    subst hother
    have hknown := hI.known other tx ⟨call, o, next, hsession⟩
    have hdoes : Event.does ⟨s, .run other choice, t⟩ other = some (o, .of other s.toShared tx) :=
      Event.does_run hsession
    generalize hold : γ other = old at hadvance
    cases hadvance with
    | stay => exact (hI.refusals other hold).cons
    | @refuse _ since hrecent =>
      obtain ⟨time, hlogged, hlate⟩ := loggedAt_of_recent hrecent
      obtain ⟨attempt, hcounted⟩ := (hI.ledger time).mp hlogged
      rw [hold] at hknown
      have hne : attempt ≠ other := by
        rintro rfl
        simp [hold, Stage.counted] at hcounted
      refine ⟨history, _, _, suffix_rfl, hdoes, attempt, hne, time, ?_, hknown.1 ▸ hlate⟩
      rwa [stage, ← hI.recalled.view_eq attempt]
  · rw [update_of_ne heq] at hother
    exact (hI.refusals other hother).cons

theorem Holds.apart_run
    (hflight : ∀ other tx, t.InFlight other tx → other ≠ sid → s.InFlight other tx)
    (hapart : Apart cooldown history s γ)
    (hundisturbed : Undisturbed tenantId cooldown history ⟨s, .run sid choice, t⟩) :
    Apart cooldown (⟨s, .run sid choice, t⟩ :: history) t (update γ sid g) := by
  have hself : s.InFlight sid tx := ⟨call, o, next, hsession⟩
  have hknown := hI.known sid tx hself
  have hdoes : Event.does ⟨s, .run sid choice, t⟩ sid = some (o, .of sid s.toShared tx) :=
    Event.does_run hsession
  have hsilent (hop : ∀ req, o ≠ .request req) :
      dispatchedAt ⟨s, .run sid choice, t⟩ = none := by
    by_contra hsome
    obtain ⟨sent, hsent⟩ := Option.ne_none_iff_exists'.mp hsome
    obtain ⟨⟨req, rfl⟩, -⟩ := dispatchedAt_run hsession hsent
    exact hop req rfl
  -- in the other cases the request stays in front of its dispatch or behind it
  have hquiet (hop : ∀ req, o ≠ .request req) (hsame : g.pending ≠ none → (γ sid).pending = g.pending) :
      Apart cooldown (⟨s, .run sid choice, t⟩ :: history) t (update γ sid g) := by
    refine hapart.cons (hsilent hop) fun other tx₁ hother hsome => ?_
    by_cases heq : other = sid
    · subst heq
      rw [update_self] at hsome ⊢
      exact ⟨⟨tx, hself⟩, hsame hsome⟩
    · rw [update_of_ne heq]
      exact ⟨⟨tx₁, hflight other tx₁ hother heq⟩, rfl⟩
  generalize hold : γ sid = old at hadvance hquiet
  cases hadvance with
  | stay hop => exact hquiet hop fun _ => rfl
  | look | refuse | mark | reopen | record => exact hquiet (by simp) (by simp [Stage.pending])
  | clear hrecent =>
    rw [hold] at hknown
    exact .clear hI hapart rfl hknown.1 hrecent hundisturbed hdoes rfl hold (hsilent (by simp)) hflight
  | @send _ checked marker req _ =>
    rw [hold] at hknown
    have hchecked : (γ sid).pending = some checked := by rw [hold]; rfl
    refine hapart.send hself hchecked hknown (by simp only [dispatchedAt, hdoes]; rfl)
      fun other tx₁ hother hsome => ?_
    by_cases heq : other = sid
    · simp [heq, Stage.pending] at hsome
    · rw [update_of_ne heq]
      exact ⟨heq, ⟨tx₁, hflight other tx₁ hother heq⟩, rfl⟩

end Steps

theorem Holds.idle {a : Action Key DeployCall} (hI : Holds tenantId cooldown history s γ)
    (ha : ∀ sid choice, a ≠ .run sid choice)
    (hrecalled : Recalled (note tenantId cooldown) .asking id (⟨s, a, t⟩ :: history) t γ)
    (hsound : protocol.Holds t) (hcommitted : t.committed = s.committed) (hclock : s.clock ≤ t.clock)
    (hflight : ∀ sid tx, t.InFlight sid tx → s.InFlight sid tx ∨ γ sid = .asking) :
    Holds tenantId cooldown (⟨s, a, t⟩ :: history) t γ := by
  have hsilent : dispatchedAt ⟨s, a, t⟩ = none := by
    cases a with
    | run sid choice => exact absurd rfl (ha sid choice)
    | _ => rfl
  refine ⟨hrecalled, hsound, fun sid tx hsid => ?_, hcommitted ▸ hI.ledger, fun d hd time htime => ?_,
    fun sid hsid => (hI.refusals sid hsid).cons, fun hall => ?_⟩
  · obtain h | h := hflight sid tx hsid
    · exact (hI.known sid tx h).later hclock
    · rw [h]
      trivial
  · obtain rfl | hmem := mem_cons.mp hd
    · simp [hsilent] at htime
    · exact hI.dispatched d hmem time htime
  · refine Apart.cons (hI.apart fun earlier e hsuffix =>
      hall earlier e (hsuffix.trans (suffix_cons _ _))) hsilent fun sid tx hsid hsome => ?_
    obtain h | h := hflight sid tx hsid
    · exact ⟨⟨tx, h⟩, rfl⟩
    · simp [h, Stage.pending] at hsome

theorem keeps_holds (cfg : DeployConfig) : (script tenantId cooldown).Keeps (deployServer cfg)
    (onlyFor tenantId) (fun _ _ => .asking) (Holds tenantId cooldown) where
  start history s γ sid call t hI _ hstep hnew ht := by
    have hasking : γ sid = .asking := (hI.recalled.view_eq sid).trans (hI.recalled.unstarted sid hnew)
    have hsame : update γ sid .asking = γ := by rw [← hasking, update_eq_self]
    have hrecalled := hI.recalled.start (g := .asking) hnew ht rfl
    have hsound := hI.sound.step (protocol_metBy cfg) hstep
    rw [hsame] at hrecalled ⊢
    subst ht
    refine hI.idle (by simp) hrecalled hsound rfl (Int.le_refl _) fun other tx hother => ?_
    obtain ⟨rfl, -⟩ | ⟨-, h⟩ := hother.cases
    · exact .inr hasking
    · exact .inl h
  known _ _ _ sid call o next tx hI hsession := hI.known sid tx ⟨call, o, next, hsession⟩
  run history s γ sid choice call o next tx answer sh' tx' g t hI hok hstep hsession hexec hmove ht := by
    have hacts := exec_acts hexec
    have hrecalled : Recalled (note tenantId cooldown) .asking id (⟨s, .run sid choice, t⟩ :: history) t
        (update γ sid g) := hI.recalled.run hsession ht hmove.noted
    have hsound := hI.sound.step (protocol_metBy cfg) hstep
    have hledger := hI.ledger.advance (c := .of sid s.toShared tx) (fun _ id row hrow => by
      obtain ⟨_, _, _, _, hfresh⟩ := (hI.sound.linked sid _ hsession (.audit id) row hrow).first
      exact hfresh) hmove.advance
    have hflight (other : Nat) (tx₁ : Txn Row) (hother : t.InFlight other tx₁) :
        other = sid ∧ tx' = tx₁ ∨ other ≠ sid ∧ s.InFlight other tx₁ := by
      subst ht
      obtain ⟨rfl, rfl, -⟩ | h := hother.cases
      · exact .inl ⟨rfl, rfl⟩
      · exact .inr h
    have hothers (other : Nat) (tx₁ : Txn Row) (hother : t.InFlight other tx₁) (hne : other ≠ sid) :
        s.InFlight other tx₁ := by
      obtain ⟨rfl, -⟩ | ⟨-, h⟩ := hflight other tx₁ hother
      · exact absurd rfl hne
      · exact h
    refine ⟨hrecalled, hsound, fun other tx₁ hother => ?_, ?_, hI.dispatched_run hsession hmove.advance,
      fun other => hI.refusals_run hsession hmove.advance, fun hall => ?_⟩
    · obtain ⟨rfl, rfl⟩ | ⟨hne, h⟩ := hflight other tx₁ hother
      · rw [update_self]
        subst ht
        exact hmove.known
      · rw [update_of_ne hne]
        subst ht
        exact (hI.known other tx₁ h).later (Int.le_of_eq hacts.clock.symm)
    · subst ht
      exact hledger
    · exact hI.apart_run hsession hmove.advance hothers
        (hI.apart fun earlier e hsuffix => hall earlier e (hsuffix.trans (suffix_cons _ _)))
        (hall history _ suffix_rfl)
  crash history s γ sid call p tx t hI _ hstep hsession ht := by
    have hrecalled := hI.recalled.crash ht
    have hsound := hI.sound.step (protocol_metBy cfg) hstep
    subst ht
    exact hI.idle (by simp) hrecalled hsound rfl (Int.le_refl _)
      fun other tx hother => .inl hother.before_crash
  tick history s γ elapsed t hI _ hstep ht := by
    have hsound := hI.sound.step (protocol_metBy cfg) hstep
    subst ht
    exact hI.idle (by simp) (hI.recalled.tick rfl) hsound rfl
      (Int.le_add_of_nonneg_right (Int.natCast_nonneg elapsed)) fun _ _ hother => .inl hother

/-- While nobody disturbs a check, dispatches keep their distance, and a request is refused only for
an attempt that has not failed. -/
theorem deploys_deduplicated (hpositive : 0 < cfg.githubDeployCooldownSeconds) (hrest : s.AtRest)
    (hfirst : ∀ time, ¬ LoggedAt tenantId s.committed time)
    (hrun : Run (deployServer cfg) (onlyFor tenantId) s history t) :
    ((∀ earlier e, e :: earlier <:+ history →
        Undisturbed tenantId cfg.githubDeployCooldownSeconds earlier e) →
      ∀ earlier e, e :: earlier <:+ history → Spaced cfg.githubDeployCooldownSeconds earlier e) ∧
    ((∀ earlier e, e :: earlier <:+ history →
        Unmarked tenantId cfg.githubDeployCooldownSeconds earlier e) →
      ∀ sid ago, t.returned sid = some (.error (Routes.recentDispatch ago)) →
        Barred tenantId cfg.githubDeployCooldownSeconds history sid) := by
  have hinit : Holds tenantId cfg.githubDeployCooldownSeconds [] s fun _ => .asking := by
    refine ⟨.nil fun _ => rfl, Protocol.holds_of_atRest hrest fun _ _ _ => trivial, ?_, ?_, by simp,
      by simp, fun _ => ⟨?_, ?_, by simp⟩⟩
    · exact fun _ _ _ => trivial
    · exact fun time => ⟨fun h => absurd h (hfirst time), fun ⟨_, h⟩ => by simp [Stage.counted] at h⟩
    · exact fun _ _ _ _ _ _ h _ => absurd rfl h
    · simp
  have hfollowed : (script tenantId cfg.githubDeployCooldownSeconds).Followed (deployServer cfg)
      (fun _ answer g => ∀ ago, answer = .error (recentDispatch ago) → g = .refused) s
      fun _ => .asking := .of_atRest hrest
  obtain ⟨γ, hholds, hfollowed⟩ := (keeps_holds cfg).run_induct
    (fun _ _ call hok => by
      obtain rfl := hok.1 _ call rfl
      exact follows_triggerEcosystemDeploy hpositive) ⟨_, hinit, hfollowed⟩ hrun
  refine ⟨fun hall => (hholds.apart hall).spaced, fun hall sid ago hreturned => ?_⟩
  obtain ⟨call, tx, hsession⟩ := Sys.returned_eq_some.mp hreturned
  have hrefused := Prog.follows_ret.mp (hfollowed sid call _ tx hsession) ago rfl
  obtain ⟨earlier, e, c, hsuffix, hdoes, other, hne, time, hcounted, hlate⟩ :=
    hholds.refusals sid hrefused
  refine ⟨earlier, e, c, hsuffix, hdoes, ?_⟩
  by_cases hfailed : (stage tenantId cfg.githubDeployCooldownSeconds other earlier).failed = true
  · -- of a failed attempt only the first row counts
    cases hstage : stage tenantId cfg.githubDeployCooldownSeconds other earlier with
    | ended marker outcome failed =>
      rw [hstage] at hfailed hcounted
      obtain rfl : failed = true := hfailed
      obtain rfl : time = marker := by simpa [Stage.counted] using hcounted
      exact hall earlier e hsuffix sid c hdoes other hne time outcome hstage hlate
    | _ => simp [hstage, Stage.failed] at hfailed
  · exact ⟨other, hne, by simpa using hfailed, time, hcounted, hlate⟩

def deployConfig : DeployConfig where
  githubDeployCooldownSeconds := 60
  githubDeployToken := some "token"
  githubDeployRepo := some "owner/repo"

def quietState (answer : DispatchAnswer) : DeployState where
  committed := ∅
  upstream := ⟨fun _ => answer, []⟩
  clock := 0
  nextId := 1
  locks _ := none
  reserved _ := none
  sessions _ := none

def deploy : DeployCall where
  tenantId := 1
  slug := "acme"
  actor := "operator"
  desiredVersion := none

def resume (sid steps : Nat) : List (Action Key DeployCall) :=
  List.replicate steps (.run sid ⟨[], .answered⟩)

def spacedOut : List (Action Key DeployCall) :=
  alone 0 deploy 18 ++ [.tick 60000000] ++ alone 1 deploy 18 ++ alone 2 deploy 5

def crossing : List (Action Key DeployCall) :=
  alone 0 deploy 4 ++ alone 1 deploy 18 ++ resume 0 14

def retrying : List (Action Key DeployCall) := alone 0 deploy 15 ++ alone 1 deploy 5

def ordinary : Action Key DeployCall → Bool
  | .start _ call => call.tenantId = 1
  | .run _ ⟨_, .answered⟩ | .crash _ | .tick _ => true
  | .run _ _ => false

theorem run_of_ordinary {actions : List (Action Key DeployCall)}
    (hschedule : recordSchedule (deployServer deployConfig) [] (quietState answer) actions =
      some (history, t)) (hordinary : actions.all ordinary = true) :
    Run (deployServer deployConfig) (onlyFor 1) (quietState answer) history t := by
  refine (run_of_recordSchedule_mem .nil hschedule fun a ha _ => ?_).1
  have hok := all_eq_true.mp hordinary a ha
  refine ⟨?_, ?_⟩
  · rintro sid call rfl
    simpa [ordinary] using hok
  · rintro sid ⟨order, delivery⟩ rfl
    cases delivery <;> simp [ordinary] at hok ⊢

def whenLooking (P : Stage → Bool) (history : List DeployStep) : Bool :=
  history.tails.all fun
    | [] => true
    | e :: earlier =>
      match e.action with
      | .run sid _ =>
        match e.does sid with
        | some (.snapshot, _) =>
          earlier.all fun before =>
            match before.action with
            | .run other _ => other = sid || P (stage 1 60 other earlier)
            | _ => true
        | _ => true
      | _ => true

theorem of_whenLooking {P : Stage → Bool} (hcheck : whenLooking P history = true)
    (hasking : P .asking = true) {earlier : List DeployStep} (hsuffix : e :: earlier <:+ history)
    (hdoes : e.does sid = some (.snapshot, c)) {other : Nat} (hne : other ≠ sid) :
    P (stage 1 60 other earlier) = true := by
  have htail := all_eq_true.mp hcheck _ ((mem_tails _ _).mpr hsuffix)
  by_cases hacted : ∃ before ∈ earlier, ∃ choice, before.action = .run other choice
  · obtain ⟨before, hmem, choice, haction⟩ := hacted
    obtain ⟨choice', haction'⟩ := Event.action_of_does hdoes
    simp only [haction', hdoes] at htail
    have hbefore := all_eq_true.mp htail before hmem
    simpa [haction, hne] using hbefore
  · have hidle : stage 1 60 other earlier = .asking :=
      gathered_of_idle fun before hmem choice h => hacted ⟨before, hmem, choice, h⟩
    rw [hidle, hasking]

def barredFor (t : DeployState) (sid : Nat) : Option String :=
  match t.returned sid with
  | some (.error (.conflict message)) => some message
  | _ => none

theorem returned_of_barredFor {ago : Int}
    (hbarred : barredFor t sid = some ("a deploy dispatch was accepted " ++ toString ago ++ "s ago — wait for it to land or check GitHub Actions before dispatching again")) :
    t.returned sid = some (.error (Routes.recentDispatch ago)) := by
  unfold barredFor at hbarred
  split at hbarred
  · rename_i message heq
    rw [heq, Option.some.inj hbarred]
    rfl
  · cases hbarred

theorem quietState_unlogged {time : Instant} : ¬ LoggedAt 1 (quietState answer).committed time := by
  rintro ⟨id, row, hrow, -⟩
  simp [quietState] at hrow

def Stage.over : Stage → Bool
  | .asking | .refused | .ended _ _ false => true
  | _ => false

section Over

variable {earlier : List DeployStep} {e : DeployStep}

theorem undisturbed_of_over (hcheck : whenLooking Stage.over history = true)
    (hsuffix : e :: earlier <:+ history) : Undisturbed 1 60 earlier e := by
  intro sid c hdoes other hne
  have hover := of_whenLooking hcheck rfl hsuffix hdoes hne
  refine ⟨fun _ _ => ?_, fun marker sentAt hsent => ?_⟩
  · generalize stage 1 60 other earlier = stage at hover
    cases stage <;> first | rfl | simp [Stage.over] at hover
  · obtain hsent | hsent := hsent <;> simp [hsent, Stage.over] at hover

theorem unmarked_of_over (hcheck : whenLooking Stage.over history = true)
    (hsuffix : e :: earlier <:+ history) : Unmarked 1 60 earlier e := by
  intro sid c hdoes other hne marker outcome hended
  have hover := of_whenLooking hcheck rfl hsuffix hdoes hne
  simp [hended, Stage.over] at hover

end Over

theorem deploys_deduplicated_spaced_out :
    ∃ history t,
      Run (deployServer deployConfig) (onlyFor 1) (quietState (.status 204)) history t ∧
      (∀ earlier e, e :: earlier <:+ history → Spaced 60 earlier e) ∧
      t.returned 2 = some (.error (Routes.recentDispatch 0)) ∧ Barred 1 60 history 2 := by
  have hrecord : ((recordSchedule (deployServer deployConfig) [] (quietState (.status 204))
      spacedOut).any fun p => whenLooking Stage.over p.1 && barredFor p.2 2 = some
        ("a deploy dispatch was accepted " ++ toString (0 : Int) ++
          "s ago — wait for it to land or check GitHub Actions before dispatching again")) = true := by
    decide
  obtain ⟨⟨history, t⟩, hschedule, hcheck⟩ := (Option.any_eq_true _ _).mp hrecord
  simp only [Bool.and_eq_true, decide_eq_true_eq] at hcheck
  have hrun := run_of_ordinary hschedule (by decide)
  have hreturned := returned_of_barredFor hcheck.2
  obtain ⟨hspaced, hbarred⟩ := deploys_deduplicated
    (show 0 < deployConfig.githubDeployCooldownSeconds by decide) ⟨fun _ => rfl, fun _ => rfl,
      fun _ => rfl⟩ (fun _ => quietState_unlogged) hrun
  exact ⟨history, t, hrun, hspaced fun _ _ => undisturbed_of_over hcheck.1, hreturned,
    hbarred (fun _ _ => unmarked_of_over hcheck.1) 2 0 hreturned⟩

def doubled (history : List DeployStep) : Bool :=
  history.tails.any fun
    | [] => false
    | e :: earlier =>
      dispatchedAt e = some (0, true) && earlier.any fun d => dispatchedAt d = some (0, true)

theorem not_spaced_of_doubled (hdoubled : doubled history = true) :
    ∃ earlier e, e :: earlier <:+ history ∧ ¬ Spaced 60 earlier e := by
  obtain ⟨tail, hmem, htail⟩ := any_eq_true.mp hdoubled
  cases tail with
  | nil => cases htail
  | cons e earlier =>
    simp only [Bool.and_eq_true, decide_eq_true_eq, any_eq_true] at htail
    obtain ⟨he, d, hd, hdispatched⟩ := htail
    refine ⟨earlier, e, (mem_tails _ _).mp hmem, fun hspaced => ?_⟩
    exact absurd (hspaced 0 true he d hd 0 hdispatched) (by decide)

def Stage.void (stage : Stage) : Bool := stage.failed || stage.counted.isEmpty

theorem not_barred_of_void (hcheck : whenLooking Stage.void history = true) :
    ¬ Barred 1 60 history sid := by
  rintro ⟨earlier, e, c, hsuffix, hdoes, other, hne, hunfailed, time, hcounted, -⟩
  have hvoid := of_whenLooking hcheck rfl hsuffix hdoes hne
  have hempty : (stage 1 60 other earlier).counted = [] := by simpa [Stage.void, hunfailed] using hvoid
  simp [hempty] at hcounted

/-- Two requests that look at the same time both dispatch, and a request after a rejected one is told
that a dispatch was accepted. -/
theorem deploys_doubled_and_wedged :
    (∀ answer, (quietState answer).AtRest ∧
      ∀ time, ¬ LoggedAt 1 (quietState answer).committed time) ∧
    (∃ history t, Run (deployServer deployConfig) (onlyFor 1) (quietState (.status 204)) history t ∧
      ∃ earlier e, e :: earlier <:+ history ∧ ¬ Spaced 60 earlier e) ∧
    ∃ history t, Run (deployServer deployConfig) (onlyFor 1) (quietState (.status 422)) history t ∧
      t.returned 1 = some (.error (Routes.recentDispatch 0)) ∧ ¬ Barred 1 60 history 1 := by
  have hcrossing : ((recordSchedule (deployServer deployConfig) [] (quietState (.status 204))
      crossing).any fun p => doubled p.1) = true := by decide
  have hretrying : ((recordSchedule (deployServer deployConfig) [] (quietState (.status 422))
      retrying).any fun p => whenLooking Stage.void p.1 && barredFor p.2 1 = some
        ("a deploy dispatch was accepted " ++ toString (0 : Int) ++
          "s ago — wait for it to land or check GitHub Actions before dispatching again")) = true := by
    decide
  refine ⟨fun _ => ⟨⟨fun _ => rfl, fun _ => rfl, fun _ => rfl⟩, fun _ => quietState_unlogged⟩, ?_, ?_⟩
  · obtain ⟨⟨history, t⟩, hschedule, hcheck⟩ := (Option.any_eq_true _ _).mp hcrossing
    exact ⟨history, t, run_of_ordinary hschedule (by decide), not_spaced_of_doubled hcheck⟩
  · obtain ⟨⟨history, t⟩, hschedule, hcheck⟩ := (Option.any_eq_true _ _).mp hretrying
    simp only [Bool.and_eq_true, decide_eq_true_eq] at hcheck
    exact ⟨history, t, run_of_ordinary hschedule (by decide), returned_of_barredFor hcheck.2,
      not_barred_of_void hcheck.1⟩

end Deploys

end ControlPlane
