import ControlPlane.Receipts

/-!
# Release receipts follow their release

What each command leaves behind, and which sequences of commands keep the receipts of different
releases apart.
-/

namespace ControlPlane.Receipts

open Interleave Function Interleave.Task List

section Rules

variable {d : Path} {size : Receipt → Nat} {K : Nat → Files → Prop} {n : Nat} {files : Files}
  {E : Nat × Files → Exit → Prop} {path : Path}

theorem meets_utcNow {Q : Nat × Files → FileOp.utcNow.Result → Prop} :
    Meets (counting (exec d size) K) (ask FileOp.utcNow) (n, files) Q E ↔
      K n files ∧ ∀ timestamp, Q (n + 1, files) timestamp := by
  rw [meets_ask_counting]
  exact and_congr_right fun _ => ⟨fun h timestamp => h ⟨timestamp, none, false⟩, fun h choice => h _⟩

theorem meets_loadJson {Q : Nat × Files → Option Receipt → Prop} :
    Meets (counting (exec d size) K) (loadJson path) (n, files) Q E ↔
      K n files ∧
        match loaded size (files path) with
        | .absent => Q (n + 1, files) none
        | .invalid => E (n + 1, files) (.raised "JSONDecodeError")
        | .document receipt => Q (n + 1, files) (some receipt) := by
  unfold loadJson
  rw [meets_bind, meets_ask_counting]
  have hchoice : Nonempty Choice := ⟨⟨"", none, false⟩⟩
  simp only [exec, forall_const]
  cases loaded size (files path) <;> simp

variable {Q : Nat × Files → Unit → Prop} {receipt : Receipt} {target : Path}

theorem meets_atomicWriteJson :
    Meets (counting (exec d size) K) (atomicWriteJson path receipt) (n, files) Q E ↔
      K n files ∧ Q (n + 1, update files path (some (whole size receipt))) () ∧
        (isStateFile d path = false → E (n + 1, files) (.raised "OSError")) := by
  unfold atomicWriteJson
  rw [meets_bind, meets_ask_counting]
  refine and_congr_right fun _ => ?_
  constructor
  · intro h
    refine ⟨by simpa [exec] using h ⟨"", none, false⟩, fun hpath => ?_⟩
    simpa [exec, hpath] using h ⟨"", none, true⟩
  · rintro ⟨hwritten, hrefused⟩ choice
    by_cases hrefuse : (choice.refuse && !isStateFile d path) = true
    · have hpath : isStateFile d path = false := by simp_all
      simpa [exec, hrefuse] using hrefused hpath
    · simpa [exec, hrefuse] using hwritten

theorem meets_copyBytes (length : Nat) :
    ∀ {n i : Nat} {files : Files}, files target = some ⟨receipt, i⟩ →
      (∀ j < length, K (n + j) (update files target (some ⟨receipt, i + j⟩))) →
      Q (n + length, update files target (some ⟨receipt, i + length⟩)) () →
      Meets (counting (exec d size) K) (copyBytes target length) (n, files) Q E := by
  induction length with
  | zero =>
    intro n i files hfile _ hQ
    rw [copyBytes, meets_pure]
    simpa [← hfile] using hQ
  | succ length ih =>
    intro n i files hfile hK hQ
    rw [copyBytes, meets_bind, meets_ask_counting]
    refine ⟨by simpa [← hfile] using hK 0 (Nat.succ_pos _), fun choice => ?_⟩
    simp only [exec, hfile]
    refine ih (update_self ..) (fun j hj => ?_) ?_
    · have hnext := hK (j + 1) (by omega)
      rw [update_idem, Nat.add_right_comm n, Nat.add_right_comm i]
      exact hnext
    · rw [update_idem, Nat.add_right_comm n, Nat.add_right_comm i]
      exact hQ

theorem meets_copy2 {source : Path} {file : File} (hsource : files source = some file)
    (hK : K n files)
    (hcopying : ∀ i < file.length, K (n + 1 + i) (update files target (some ⟨file.receipt, i⟩)))
    (hQ : Q (n + 1 + file.length, update files target (some file)) ()) :
    Meets (counting (exec d size) K) (copy2 source target) (n, files) Q E := by
  refine .ask_bind hK fun choice => ?_
  simp only [exec, hsource]
  refine meets_copyBytes file.length (i := 0) (update_self ..) ?_ ?_
  · intro i hi
    rw [update_idem, Nat.zero_add]
    exact hcopying i hi
  · rw [update_idem, Nat.zero_add]
    exact hQ

end Rules

section Stages

variable (d : Path) (size : Receipt → Nat)

def receipted (files : Files) (finalized : Receipt) : Files :=
  update files (receiptPath d finalized.releaseId) (some (whole size finalized))

def copying (files : Files) (file : File) (i : Nat) : Files :=
  update files (previousPath d) (some ⟨file.receipt, i⟩)

def promoted (files : Files) (finalized : Receipt) : Files :=
  update files (currentPath d) (some (whole size finalized))

def cleared (files : Files) : Files := update files (pendingPath d) none

/-- The worlds between two operations of a `finalize` that found the document `pending`, by the number
of operations performed. -/
inductive Stage (files : Files) (pending : Receipt) (status : String) : Nat → Files → Prop
  | untouched {n : Nat} (hn : n ≤ 3) : Stage files pending status n files
  | receipted {n : Nat} (t t' : String) (hn : n = 4 ∨ n = 5) :
      Stage files pending status n (receipted d size files (pending.finalize status t t'))
  | copying {file : File} {i : Nat} (t t' : String) (hi : i ≤ file.length)
      (hfile : Receipts.receipted d size files (pending.finalize status t t') (currentPath d) =
        some file) :
      Stage files pending status (6 + i)
        (copying d (Receipts.receipted d size files (pending.finalize status t t')) file i)
  | promoted {file : File} (t t' : String)
      (hfile : Receipts.receipted d size files (pending.finalize status t t') (currentPath d) =
        some file) :
      Stage files pending status (7 + file.length)
        (promoted d size (Receipts.copying d
          (Receipts.receipted d size files (pending.finalize status t t')) file file.length)
          (pending.finalize status t t'))
  | promotedFirst (t t' : String)
      (hfile : Receipts.receipted d size files (pending.finalize status t t') (currentPath d) = none) :
      Stage files pending status 6
        (Receipts.promoted d size (Receipts.receipted d size files (pending.finalize status t t'))
          (pending.finalize status t t'))

inductive Ended (files : Files) (pending : Receipt) (status : String) : Nat → Files → Prop
  | rotated {file : File} (t t' : String)
      (hfile : receipted d size files (pending.finalize status t t') (currentPath d) = some file) :
      Ended files pending status (8 + file.length)
        (cleared d (promoted d size (copying d
          (receipted d size files (pending.finalize status t t')) file file.length)
          (pending.finalize status t t')))
  | first (t t' : String)
      (hfile : receipted d size files (pending.finalize status t t') (currentPath d) = none) :
      Ended files pending status 7
        (cleared d (promoted d size (receipted d size files (pending.finalize status t t'))
          (pending.finalize status t t')))

end Stages

section Commands

variable {d : Path} {size : Receipt → Nat} {files : Files}

theorem isStateFile_pendingPath : isStateFile d (pendingPath d) = true := by simp [isStateFile]

theorem isStateFile_currentPath : isStateFile d (currentPath d) = true := by simp [isStateFile]

variable {K : Nat → Files → Prop} {Q : Nat × Files → String → Prop} {E : Nat × Files → Exit → Prop}
  {n : Nat}

theorem meets_promote {finalized : Receipt} {message : String} (hK : K n files)
    (hpromoted : K (n + 1) (promoted d size files finalized))
    (hQ : Q (n + 2, cleared d (promoted d size files finalized)) message) :
    Meets (counting (exec d size) K) (do
      atomicWriteJson (currentPath d) finalized
      ask (FileOp.unlink (pendingPath d))
      pure message) (n, files) Q E := by
  rw [meets_bind, meets_atomicWriteJson]
  refine ⟨hK, ?_, fun hpath => ?_⟩
  · exact .ask_bind hpromoted fun _ => .pure hQ
  · rw [isStateFile_currentPath] at hpath
    cases hpath

variable {releaseId status : String} {pending : Receipt} {name detail : String}

theorem meets_cmdFinalize (hpending : loaded size (files (pendingPath d)) = .document pending) :
    Meets (counting (exec d size) (Stage d size files pending status))
      (cmdFinalize d releaseId status) (0, files)
      (fun k _ => Ended d size files pending status k.1 k.2)
      (fun k e => k = (4, files) ∧ e = .raised "OSError" ∧
        isStateFile d (receiptPath d pending.releaseId) = false) := by
  unfold cmdFinalize
  rw [meets_bind, meets_loadJson, hpending]
  refine ⟨.untouched (by omega), .bind (meets_utcNow.mpr ⟨.untouched (by omega), fun t => ?_⟩)⟩
  refine .bind (meets_utcNow.mpr ⟨.untouched (by omega), fun t' => ?_⟩)
  refine .bind (meets_atomicWriteJson.mpr ⟨.untouched (by omega), ?_, fun hpath =>
    ⟨rfl, rfl, hpath⟩⟩)
  refine .ask_bind (.receipted t t' (.inl rfl)) fun _ => ?_
  change Meets _ (if (receipted d size files (pending.finalize status t t')
    (currentPath d)).isSome = true then _ else _) (5, receipted d size files
      (pending.finalize status t t')) _ _
  cases hfile : receipted d size files (pending.finalize status t t') (currentPath d) with
  | none => exact meets_promote (.receipted t t' (.inr rfl)) (.promotedFirst t t' hfile) (.first t t' hfile)
  | some file =>
    rw [if_pos Option.isSome_some, meets_bind]
    refine meets_copy2 hfile (.receipted t t' (.inr rfl)) (fun i hi =>
      .copying t t' (Nat.le_of_lt hi) hfile) ?_
    refine meets_promote ?_ ?_ ?_
    · exact .copying t t' (Nat.le_refl _) hfile
    · rw [Nat.add_right_comm]
      exact .promoted t t' hfile
    · rw [show 5 + 1 + file.length + 2 = 8 + file.length by omega]
      exact .rotated t t' hfile

def rollbackDocument (d : Path) (size : Receipt → Nat) (files : Files) (releaseId service : String) :
    Receipt :=
  match loaded size (files (pendingPath d)) with
  | .document pending => pending
  | _ => .minimal releaseId service

theorem meets_configDigest {Q : Nat × Files → List (String × String) → Prop} {key file : String}
    {digests : List (String × String)} (hK : K n files) (hQ : ∀ n digests, Q (n, files) digests)
    (hE : ∀ n e, E (n, files) e) :
    Meets (counting (exec d size) K) (configDigest key file digests) (n, files) Q E := by
  unfold configDigest
  split_ifs
  · refine .ask_bind hK fun choice => ?_
    simp only [exec]
    cases choice.digest with
    | none => exact meets_throw.mpr (hE _ _)
    | some digest => exact .pure (hQ _ _)
  · exact .pure (hQ _ _)

/-! What a command that has come to its end has done. -/

variable {after : Files} {outcome : Except Exit String} {service reason : String}

theorem completes_pending {args : PendingArgs}
    (h : Proc.Completes (exec d size) files (cmdPending d args).run after outcome) :
    after = files ∨ ∃ receipt : Receipt, receipt.rollbackResult = none ∧
      after = update files (pendingPath d) (some (whole size receipt)) := by
  refine of_completes h ?_
  refine .bind (meets_require.mpr ⟨fun digests _ => ?_, fun _ _ => .inl rfl⟩)
  refine .bind (meets_require.mpr ⟨fun configDigests _ => ?_, fun _ _ => .inl rfl⟩)
  refine .bind (meets_configDigest trivial (fun n _ => ?_) fun _ _ => .inl rfl)
  refine .bind (meets_configDigest trivial (fun n _ => ?_) fun _ _ => .inl rfl)
  refine .bind (meets_configDigest trivial (fun n _ => ?_) fun _ _ => .inl rfl)
  refine .bind (meets_utcNow.mpr ⟨trivial, fun t => ?_⟩)
  exact .bind (meets_atomicWriteJson.mpr ⟨trivial, .pure (.inr ⟨_, rfl, rfl⟩), fun _ => .inl rfl⟩)

theorem completes_phase_absent (hpending : files (pendingPath d) = none)
    (h : Proc.Completes (exec d size) files (cmdPhase d releaseId name status detail).run after outcome) :
    outcome.isOk = false ∧ after = files := by
  refine of_completes h ?_
  unfold cmdPhase
  rw [meets_bind, meets_loadJson, hpending]
  exact ⟨trivial, meets_throw.mpr ⟨rfl, rfl⟩⟩

theorem completes_phase (hpending : loaded size (files (pendingPath d)) = .document pending)
    (h : Proc.Completes (exec d size) files (cmdPhase d releaseId name status detail).run after outcome) :
    outcome.isOk = true ∧ ∃ t, after = update files (pendingPath d)
      (some (whole size (pending.recordPhase name status detail t))) := by
  refine of_completes h ?_
  unfold cmdPhase
  rw [meets_bind, meets_loadJson, hpending]
  refine ⟨trivial, .bind (meets_utcNow.mpr ⟨trivial, fun t => ?_⟩)⟩
  refine .bind (meets_atomicWriteJson.mpr ⟨trivial, .pure ⟨rfl, t, rfl⟩, fun hpath => ?_⟩)
  rw [isStateFile_pendingPath] at hpath
  cases hpath

theorem completes_finalize_absent (hpending : files (pendingPath d) = none)
    (h : Proc.Completes (exec d size) files (cmdFinalize d releaseId status).run after outcome) :
    outcome = .error (.exited "ERROR: no pending.json — cannot finalize") ∧ after = files := by
  refine of_completes h ?_
  unfold cmdFinalize
  rw [meets_bind, meets_loadJson, hpending]
  exact ⟨trivial, meets_throw.mpr ⟨rfl, rfl⟩⟩

theorem completes_finalize (hpending : loaded size (files (pendingPath d)) = .document pending)
    (h : Proc.Completes (exec d size) files (cmdFinalize d releaseId status).run after outcome) :
    (outcome = .error (.raised "OSError") ∧ after = files) ∨
      outcome.isOk = true ∧ ∃ n, Ended d size files pending status n after := by
  obtain ⟨n, hend⟩ := completes_cases (meets_cmdFinalize hpending) h
  cases outcome with
  | ok message => exact .inr ⟨rfl, n, hend⟩
  | error e =>
    obtain ⟨hk, rfl, _⟩ := hend
    exact .inl ⟨rfl, congrArg Prod.snd hk⟩

theorem completes_rollback (hvalid : loaded size (files (pendingPath d)) ≠ .invalid)
    (h : Proc.Completes (exec d size) files (cmdRollback d releaseId service reason).run after outcome) :
    (outcome = .error (.raised "OSError") ∧ after = files) ∨
      outcome.isOk = true ∧ ∃ t t' t'', after = cleared d (receipted d size files
        ((rollbackDocument d size files releaseId service).rollBack reason t t' t'')) := by
  refine of_completes h ?_
  unfold cmdRollback rollbackDocument
  rw [meets_bind, meets_loadJson]
  refine ⟨trivial, ?_⟩
  cases hpending : loaded size (files (pendingPath d)) with
  | invalid => exact absurd hpending hvalid
  | absent | document pending =>
    refine .bind (meets_utcNow.mpr ⟨trivial, fun t => ?_⟩)
    refine .bind (meets_utcNow.mpr ⟨trivial, fun t' => ?_⟩)
    refine .bind (meets_utcNow.mpr ⟨trivial, fun t'' => ?_⟩)
    refine .bind (meets_atomicWriteJson.mpr ⟨trivial, ?_, fun _ => .inl ⟨rfl, rfl⟩⟩)
    refine .ask_bind trivial fun _ => ?_
    refine .ask_bind trivial fun _ => ?_
    exact .pure (.inr ⟨rfl, t, t', t'', rfl⟩)

end Commands

section Runs

variable (d : Path) (size : Receipt → Nat)

structure Step where
  before : Files
  command : Command
  outcome : Except Exit String
  after : Files

/-- Commands one after the other, each run to its end, on a state directory that was empty. -/
inductive Run : List Step → Files → Prop
  | start : Run [] fun _ => none
  | step {steps : List Step} {files after : Files} {command : Command} {outcome : Except Exit String}
      (hrun : Run steps files)
      (hcompletes : Proc.Completes (exec d size) files (command.script d).run after outcome) :
      Run (steps ++ [⟨files, command, outcome, after⟩]) after

def pendingRelease (files : Files) : Option String :=
  match loaded size (files (pendingPath d)) with
  | .document pending => some pending.releaseId
  | _ => none

def Command.names : Command → Option String
  | .phase releaseId .. => some releaseId
  | .finalize releaseId _ => some releaseId
  | _ => none

def Receipt.WasFinalized (receipt : Receipt) : Prop :=
  receipt.finalizedAt.isSome ∧ receipt.rollbackResult = none

def StoredAt (files : Files) (path : Path) : Prop :=
  ∃ file, files path = some file ∧ file.receipt.WasFinalized ∧
    path = receiptPath d file.receipt.releaseId

structure FollowsId (step : Step) : Prop where
  named : ∀ releaseId, step.command.names = some releaseId →
    pendingRelease d size step.before ≠ some releaseId →
      step.outcome.isOk = false ∧ step.after = step.before
  /-- The current release changes by its own `finalize` only. -/
  current : step.after (currentPath d) ≠ step.before (currentPath d) →
    ∃ file status, step.after (currentPath d) = some file ∧
      step.command = .finalize file.receipt.releaseId status
  /-- A rollback leaves the receipts of finalized releases. -/
  stored : ∀ releaseId service reason, step.command = .rollback releaseId service reason →
    ∀ path, StoredAt d step.before path → step.after path = step.before path

def Refused (step : Step) : Prop := step.outcome = .error (.raised "OSError")

/-- The caller keeps to the pending release, and to ids whose receipts are nobody else's file. -/
def Heeds (step : Step) : Prop :=
  match step.command with
  | .pending _ => True
  | .phase releaseId .. | .finalize releaseId _ =>
    Refused step ∨ ∀ pending, pendingRelease d size step.before = some pending → pending = releaseId
  | .rollback releaseId _ _ =>
    let path := receiptPath d ((pendingRelease d size step.before).getD releaseId)
    Refused step ∨ path ≠ currentPath d ∧ ¬ StoredAt d step.before path

structure Sound (files : Files) : Prop where
  pending : ∀ file, files (pendingPath d) = some file →
    file.complete size = true ∧ file.receipt.rollbackResult = none
  current : ∀ file, files (currentPath d) = some file → file.receipt.rollbackResult = none

end Runs

section Steps

variable {d : Path} {size : Receipt → Nat} {files after : Files} {outcome : Except Exit String}

@[simp]
theorem pendingPath_ne_currentPath : pendingPath d ≠ currentPath d := by
  simp [pendingPath, currentPath]

@[simp]
theorem pendingPath_ne_previousPath : pendingPath d ≠ previousPath d := by
  simp [pendingPath, previousPath]

theorem previousPath_ne_currentPath : previousPath d ≠ currentPath d := by
  simp [previousPath, currentPath]

theorem complete_iff {file : File} :
    file.complete size = true ↔ size file.receipt ≤ file.length + 1 := decide_eq_true_iff

theorem complete_whole (receipt : Receipt) : (whole size receipt).complete size = true :=
  complete_iff.mpr (Nat.le_succ _)

theorem Sound.pending_cases (hsound : Sound d size files) :
    files (pendingPath d) = none ∨ ∃ pending, loaded size (files (pendingPath d)) = .document pending ∧
      pending.rollbackResult = none := by
  cases hfile : files (pendingPath d) with
  | none => exact .inl rfl
  | some file =>
    have hpending := hsound.pending file hfile
    exact .inr ⟨file.receipt, by simp [loaded, hpending.1], hpending.2⟩

theorem pendingRelease_absent (hpending : files (pendingPath d) = none) :
    pendingRelease d size files = none := by simp [pendingRelease, hpending, loaded]

variable {pending : Receipt}

theorem pendingRelease_document (hpending : loaded size (files (pendingPath d)) = .document pending) :
    pendingRelease d size files = some pending.releaseId := by simp [pendingRelease, hpending]

variable {status : String}

theorem Ended.current {n : Nat} (hended : Ended d size files pending status n after) :
    after (pendingPath d) = none ∧
      ∃ t t', after (currentPath d) = some (whole size (pending.finalize status t t')) := by
  cases hended with
  | rotated t t' hfile | first t t' hfile =>
    refine ⟨update_self .., t, t', ?_⟩
    rw [cleared, update_of_ne pendingPath_ne_currentPath.symm]
    exact update_self ..

theorem Sound.valid (hsound : Sound d size files) :
    loaded size (files (pendingPath d)) ≠ .invalid := by
  rcases hsound.pending_cases with hnone | ⟨pending, hpending, _⟩
  · simp [hnone, loaded]
  · simp [hpending]

theorem rollbackDocument_releaseId :
    (rollbackDocument d size files releaseId service).releaseId =
      (pendingRelease d size files).getD releaseId := by
  unfold rollbackDocument pendingRelease
  cases loaded size (files (pendingPath d)) <;> rfl

variable {command : Command} {receipt : Receipt} {steps : List Step}

theorem FollowsId.of_unchanged (hfailed : outcome.isOk = false) (hafter : after = files) :
    FollowsId d size ⟨files, command, outcome, after⟩ where
  named _ _ _ := ⟨hfailed, hafter⟩
  current hchanged := absurd (congrFun hafter _) hchanged
  stored _ _ _ _ _ _ := congrFun hafter _

theorem follows_iff_of_ok (hnames : command.names = some releaseId)
    (hpending : loaded size (files (pendingPath d)) = .document pending) (hok : outcome.isOk = true)
    (hcurrent : pending.releaseId = releaseId → after (currentPath d) ≠ files (currentPath d) →
      ∃ file status, after (currentPath d) = some file ∧
      command = .finalize file.receipt.releaseId status) :
    FollowsId d size ⟨files, command, outcome, after⟩ ↔
      Refused ⟨files, command, outcome, after⟩ ∨
        ∀ found, pendingRelease d size files = some found → found = releaseId := by
  have hrelease := pendingRelease_document hpending
  constructor
  · intro hfollows
    refine .inr fun found hfound => ?_
    by_contra hne
    have hfailed := (hfollows.named releaseId hnames (by simpa [hfound] using hne)).1
    rw [show outcome.isOk = true from hok] at hfailed
    cases hfailed
  · rintro (hrefused | hheeds)
    · rw [show outcome = _ from hrefused] at hok
      cases hok
    · have hnamed := hheeds _ hrelease
      refine ⟨fun other hother hne => ?_, hcurrent hnamed, ?_⟩
      · rw [hnames, ← hnamed] at hother
        exact absurd (hrelease.trans hother) hne
      · rintro _ _ _ rfl
        cases hnames

theorem follows_iff_heeds_phase (hsound : Sound d size files)
    (h : Proc.Completes (exec d size) files (cmdPhase d releaseId name status detail).run after outcome) :
    FollowsId d size ⟨files, .phase releaseId name status detail, outcome, after⟩ ↔
      Heeds d size ⟨files, .phase releaseId name status detail, outcome, after⟩ := by
  rcases hsound.pending_cases with hnone | ⟨pending, hpending, _⟩
  · have hunchanged := completes_phase_absent hnone h
    refine iff_of_true (.of_unchanged hunchanged.1 hunchanged.2) (.inr ?_)
    simp [pendingRelease_absent hnone]
  · obtain ⟨hok, t, hafter⟩ := completes_phase hpending h
    have hcurrent : after (currentPath d) = files (currentPath d) := by
      rw [hafter, update_of_ne pendingPath_ne_currentPath.symm]
    exact follows_iff_of_ok rfl hpending hok fun _ hchanged => absurd hcurrent hchanged

theorem follows_iff_heeds_finalize (hsound : Sound d size files)
    (h : Proc.Completes (exec d size) files (cmdFinalize d releaseId status).run after outcome) :
    FollowsId d size ⟨files, .finalize releaseId status, outcome, after⟩ ↔
      Heeds d size ⟨files, .finalize releaseId status, outcome, after⟩ := by
  rcases hsound.pending_cases with hnone | ⟨pending, hpending, _⟩
  · have hunchanged := completes_finalize_absent hnone h
    refine iff_of_true (.of_unchanged (by rw [hunchanged.1]; rfl) hunchanged.2) (.inr ?_)
    simp [pendingRelease_absent hnone]
  rcases completes_finalize hpending h with ⟨hrefused, hafter⟩ | ⟨hok, n, hended⟩
  · exact iff_of_true (.of_unchanged (by rw [hrefused]; rfl) hafter) (.inl hrefused)
  · obtain ⟨_, t, t', hcurrent⟩ := hended.current
    refine follows_iff_of_ok rfl hpending hok fun hnamed _ => ⟨_, status, hcurrent, ?_⟩
    rw [← hnamed]
    rfl

theorem after_rollback (path : Path) (hafter : after = cleared d (receipted d size files receipt))
    (hne : path ≠ pendingPath d) :
    after path = if path = receiptPath d receipt.releaseId then some (whole size receipt)
      else files path := by
  rw [hafter, cleared, update_of_ne hne, receipted, update_apply]

theorem follows_iff_heeds_rollback (hsound : Sound d size files)
    (h : Proc.Completes (exec d size) files (cmdRollback d releaseId service reason).run after outcome) :
    FollowsId d size ⟨files, .rollback releaseId service reason, outcome, after⟩ ↔
      Heeds d size ⟨files, .rollback releaseId service reason, outcome, after⟩ := by
  rcases completes_rollback hsound.valid h with ⟨hrefused, hafter⟩ | ⟨hok, t, t', t'', hafter⟩
  · exact iff_of_true (.of_unchanged (by rw [hrefused]; rfl) hafter) (.inl hrefused)
  have hreleaseId : ((rollbackDocument d size files releaseId service).rollBack reason t t' t'').releaseId =
      (pendingRelease d size files).getD releaseId := rollbackDocument_releaseId
  generalize hreceipt : (rollbackDocument d size files releaseId service).rollBack reason t t' t'' =
    receipt at hafter hreleaseId
  have hresult : receipt.rollbackResult ≠ none := by
    rw [← hreceipt]
    exact nofun
  have hpath := fun path => after_rollback path hafter
  rw [hreleaseId] at hpath
  constructor
  · intro hfollows
    refine .inr ⟨fun hcurrent => ?_, fun hstored => ?_⟩
    · -- the failure receipt has become the current release
      have hwritten := hpath (currentPath d) pendingPath_ne_currentPath.symm
      rw [if_pos hcurrent.symm] at hwritten
      have hchanged : after (currentPath d) ≠ files (currentPath d) := by
        intro hsame
        exact hresult (hsound.current _ (hsame.symm.trans hwritten))
      obtain ⟨_, _, _, hcommand⟩ := hfollows.current hchanged
      cases hcommand
    · have hsame := hfollows.stored _ _ _ rfl _ hstored
      obtain ⟨file, hfile, hfinalized, _⟩ := hstored
      dsimp only at hsame hfile
      rw [hfile] at hsame
      by_cases hpending : receiptPath d ((pendingRelease d size files).getD releaseId) = pendingPath d
      · have hgone : after (pendingPath d) = none := by rw [hafter, cleared, update_self]
        rw [hpending, hgone] at hsame
        cases hsame
      · rw [hpath _ hpending, if_pos rfl] at hsame
        rw [← Option.some.inj hsame] at hfinalized
        exact hresult hfinalized.2
  · rintro (hrefused | ⟨hcurrent, hunstored⟩)
    · rw [show outcome = _ from hrefused] at hok
      cases hok
    · dsimp only at hcurrent hunstored
      refine ⟨nofun, fun hchanged => ?_, fun _ _ _ _ path hstored => ?_⟩ <;> dsimp only at *
      · refine absurd ?_ hchanged
        rw [hpath _ pendingPath_ne_currentPath.symm, if_neg (Ne.symm hcurrent)]
      · by_cases hpending : path = pendingPath d
        · -- the pending document would be a stored receipt at its own path
          obtain ⟨file, hfile, hfinalized, hplace⟩ := hstored
          have hfound := (hsound.pending file (hpending ▸ hfile)).1
          have hrelease : pendingRelease d size files = some file.receipt.releaseId := by
            apply pendingRelease_document
            rw [← hpending, hfile, loaded, if_pos hfound]
          rw [hrelease, Option.getD_some, ← hplace] at hunstored
          exact absurd ⟨file, hfile, hfinalized, hplace⟩ hunstored
        · rw [hpath _ hpending, if_neg]
          rintro rfl
          exact hunstored hstored

theorem follows_iff_heeds (hsound : Sound d size files)
    (h : Proc.Completes (exec d size) files (command.script d).run after outcome) :
    FollowsId d size ⟨files, command, outcome, after⟩ ↔ Heeds d size ⟨files, command, outcome, after⟩ := by
  cases command with
  | pending args =>
    have hcurrent : after (currentPath d) = files (currentPath d) := by
      rcases completes_pending h with hafter | ⟨receipt, _, hafter⟩
      · rw [hafter]
      · rw [hafter, update_of_ne pendingPath_ne_currentPath.symm]
    exact iff_of_true ⟨nofun, fun hchanged => absurd hcurrent hchanged, nofun⟩ trivial
  | phase releaseId name status detail => exact follows_iff_heeds_phase hsound h
  | finalize releaseId status => exact follows_iff_heeds_finalize hsound h
  | rollback releaseId service reason => exact follows_iff_heeds_rollback hsound h

theorem Sound.pending_written (hsound : Sound d size files)
    (hresult : receipt.rollbackResult = none) :
    Sound d size (update files (pendingPath d) (some (whole size receipt))) where
  pending file hfile := by
    rw [update_self] at hfile
    cases hfile
    exact ⟨complete_whole receipt, hresult⟩
  current file hfile := by
    rw [update_of_ne pendingPath_ne_currentPath.symm] at hfile
    exact hsound.current file hfile

theorem Sound.step (hsound : Sound d size files)
    (h : Proc.Completes (exec d size) files (command.script d).run after outcome)
    (hheeds : Heeds d size ⟨files, command, outcome, after⟩) : Sound d size after := by
  cases command with
  | pending args =>
    rcases completes_pending h with rfl | ⟨receipt, hresult, rfl⟩
    · exact hsound
    · exact hsound.pending_written hresult
  | phase releaseId name status detail =>
    simp only [Command.script] at h
    rcases hsound.pending_cases with hnone | ⟨pending, hpending, hresult⟩
    · rw [(completes_phase_absent hnone h).2]
      exact hsound
    · obtain ⟨_, t, rfl⟩ := completes_phase hpending h
      exact hsound.pending_written hresult
  | finalize releaseId status =>
    simp only [Command.script] at h
    rcases hsound.pending_cases with hnone | ⟨pending, hpending, hresult⟩
    · rw [(completes_finalize_absent hnone h).2]
      exact hsound
    rcases completes_finalize hpending h with ⟨_, rfl⟩ | ⟨_, n, hended⟩
    · exact hsound
    · obtain ⟨hgone, t, t', hcurrent⟩ := hended.current
      refine ⟨fun file hfile => ?_, fun file hfile => ?_⟩
      · rw [hgone] at hfile
        cases hfile
      · rw [hcurrent] at hfile
        cases hfile
        exact hresult
  | rollback releaseId service reason =>
    rcases completes_rollback hsound.valid h with ⟨_, rfl⟩ | ⟨hok, t, t', t'', hafter⟩
    · exact hsound
    rcases hheeds with hrefused | ⟨hcurrent, _⟩
    · rw [show outcome = _ from hrefused] at hok
      cases hok
    refine ⟨fun file hfile => ?_, fun file hfile => ?_⟩
    · rw [hafter, cleared, update_self] at hfile
      cases hfile
    · rw [after_rollback _ hafter pendingPath_ne_currentPath.symm, if_neg] at hfile
      · exact hsound.current file hfile
      · intro hpath
        refine hcurrent ?_
        rw [hpath, ← rollbackDocument_releaseId]
        rfl

theorem sound_empty : Sound d size fun _ => none := ⟨nofun, nofun⟩

theorem Run.sound (hrun : Run d size steps files) (hheeds : ∀ step ∈ steps, Heeds d size step) :
    Sound d size files := by
  induction hrun with
  | start => exact sound_empty
  | step _ hcompletes ih =>
    rw [forall_mem_append] at hheeds
    exact (ih hheeds.1).step hcompletes (hheeds.2 _ (mem_singleton_self _))

/-- All commands of a run follow their release ids if and only if every `phase` and `finalize` names
the pending release, and no rollback is sent to a path that is the current release's or holds the
receipt of a finalized one. -/
theorem receipts_follow_iff {steps : List Step} (hrun : Run d size steps files) :
    (∀ step ∈ steps, FollowsId d size step) ↔ ∀ step ∈ steps, Heeds d size step := by
  induction hrun with
  | start => simp
  | step hrun hcompletes ih =>
    rw [forall_mem_append, forall_mem_append, ih]
    refine and_congr_right fun hheeds => ?_
    simpa using follows_iff_heeds (hrun.sound hheeds) hcompletes

def performed (d : Path) (size : Receipt → Nat) : List Command → List Step → Files → List Step × Files
  | [], steps, files => (steps, files)
  | command :: commands, steps, files =>
    let ended := (command.script d).run.finish (exec d size) ⟨"2026-01-01T00:00:00Z", none, false⟩ files
    performed d size commands (steps ++ [⟨files, command, ended.2, ended.1⟩]) ended.1

theorem Run.performed (hrun : Run d size steps files) (commands : List Command) :
    Run d size (performed d size commands steps files).1 (performed d size commands steps files).2 := by
  induction commands generalizing steps files with
  | nil => exact hrun
  | cons command commands ih => exact ih (.step hrun (Proc.completes_finish _))

def stepsOf (d : Path) (size : Receipt → Nat) (commands : List Command) : List Step :=
  (performed d size commands [] fun _ => none).1

def releasesDir : Path := ["var", "lib", "crowdrelay", "releases"]

def textSize (_ : Receipt) : Nat := 3

def startRelease (releaseId : String) : Command :=
  .pending { service := "crowdrelay", releaseId, sourceSha := "0a1b" }

theorem receipts_follow_iff_one_release :
    let steps := stepsOf releasesDir textSize [startRelease "r1", .phase "r1" "cutover" "pass" "",
      .finalize "r1" "pass", .rollback "r2" "" "aborted"]
    (∀ step ∈ steps, FollowsId releasesDir textSize step) ↔
      ∀ step ∈ steps, Heeds releasesDir textSize step :=
  receipts_follow_iff (Run.start.performed _)

/-- A `finalize` of another release makes the pending one current; a rollback without a pending
release overwrites a finalized receipt; an id that leaves the directory makes a failed release
current. -/
theorem receipts_mixed_up :
    (∃ step ∈ stepsOf releasesDir textSize [startRelease "r2", .finalize "r1" "pass"],
      step.command = .finalize "r1" "pass" ∧ ¬ FollowsId releasesDir textSize step) ∧
    (∃ step ∈ stepsOf releasesDir textSize [startRelease "r1", .finalize "r1" "pass",
        .rollback "r1" "" "late"],
      step.command = .rollback "r1" "" "late" ∧ ¬ FollowsId releasesDir textSize step) ∧
    ∃ step ∈ stepsOf releasesDir textSize [.rollback "../current" "" "abort"],
      step.command = .rollback "../current" "" "abort" ∧ ¬ FollowsId releasesDir textSize step := by
  refine ⟨⟨_, mem_cons_of_mem _ (mem_cons_self), rfl, fun h => ?_⟩,
    ⟨_, mem_cons_of_mem _ (mem_cons_of_mem _ mem_cons_self), rfl, fun h => ?_⟩,
    ⟨_, mem_cons_self, rfl, fun h => ?_⟩⟩
  · have hfailed := (h.named "r1" rfl (by decide)).1
    revert hfailed
    decide
  · have hsame := h.stored _ _ _ rfl (receiptPath releasesDir "r1") ⟨_, rfl, ⟨rfl, rfl⟩, rfl⟩
    revert hsame
    decide
  · obtain ⟨_, _, _, hcommand⟩ := h.current (by decide)
    cases hcommand

end Steps

end ControlPlane.Receipts
