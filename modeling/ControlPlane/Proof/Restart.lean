import ControlPlane.Proof.Receipts

/-!
# Running `finalize` again

The points of the kill from which running `finalize` again gives what the first run would have given
are counted in operations.
-/

namespace ControlPlane.Receipts

open Interleave Function Interleave.Task

section Restart

variable {d : Path} {size : Receipt → Nat} {files v : Files}

variable {receipt : Receipt} {choice : Choice} {path : Path} {t : String}

theorem finish_copyBytes {target : Path} (length : Nat) :
    ∀ {i : Nat} {files : Files}, files target = some ⟨receipt, i⟩ →
      finish (exec d size) choice (copyBytes target length) files =
        (update files target (some ⟨receipt, i + length⟩), .ok ()) := by
  induction length with
  | zero =>
    intro i files hfile
    rw [copyBytes, finish_pure, Nat.add_zero, ← hfile, update_eq_self]
  | succ length ih =>
    intro i files hfile
    have hbyte : finish (exec d size) choice (ask (FileOp.copyByte target) : Script Unit) files =
        (update files target (some ⟨receipt, i + 1⟩), .ok ()) := by
      rw [finish_ask]
      simp only [exec, hfile]
    rw [copyBytes, finish_bind_of_ok hbyte, ih (update_self ..), update_idem,
      Nat.add_right_comm i]
    rfl

theorem finish_loadJson (hpath : loaded size (files path) = .document receipt) :
    finish (exec d size) choice (loadJson path) files = (files, .ok (some receipt)) := by
  unfold loadJson
  rw [finish_bind_of_ok finish_ask]
  simp only [exec, hpath]
  rfl

variable {file : File} {pending : Receipt} {status : String}

theorem finish_cmdFinalize (releaseId : String)
    (hpending : loaded size (files (pendingPath d)) = .document pending)
    (hfile : receipted d size files (pending.finalize status t t) (currentPath d) = some file) :
    ∃ message, finish (exec d size) ⟨t, none, false⟩ (cmdFinalize d releaseId status) files =
      (cleared d (promoted d size (copying d (receipted d size files (pending.finalize status t t))
        file file.length) (pending.finalize status t t)), .ok message) := by
  have hcopied : finish (exec d size) ⟨t, none, false⟩ (copy2 (currentPath d) (previousPath d))
      (receipted d size files (pending.finalize status t t)) =
        (copying d (receipted d size files (pending.finalize status t t)) file file.length, .ok ()) := by
    unfold copy2
    rw [finish_bind_of_ok finish_ask]
    simp only [exec, hfile]
    rw [finish_copyBytes file.length (update_self ..), update_idem, Nat.zero_add]
    rfl
  unfold cmdFinalize
  rw [finish_bind_of_ok (finish_loadJson hpending)]
  constructor
  change finish (exec d size) ⟨t, none, false⟩ (if (receipted d size files
    (pending.finalize status t t) (currentPath d)).isSome = true then _ else _)
      (receipted d size files (pending.finalize status t t)) = _
  rw [hfile, if_pos Option.isSome_some, finish_bind_of_ok hcopied]
  rfl

def Valid (d : Path) (size : Receipt → Nat) (files : Files) : Prop :=
  ∀ path, isStateFile d path = true → ∀ file, files path = some file → file.complete size = true

/-- `finalize`, run to its end from here, leaves the release `pending` current and the release `current`
previous. -/
def Rotates (d : Path) (size : Receipt → Nat) (pending current : Receipt) (releaseId status : String)
    (files : Files) : Prop :=
  ∀ after outcome, Proc.Completes (exec d size) files (cmdFinalize d releaseId status).run after outcome →
    outcome ≠ .error (.raised "OSError") →
      (∃ t t', after (currentPath d) = some (whole size (pending.finalize status t t'))) ∧
        after (previousPath d) = some (whole size current)

theorem Valid.update (hvalid : Valid d size files) (hfile : file.complete size = true) :
    Valid d size (update files path (some file)) := by
  intro other hstate found hfound
  by_cases hother : other = path
  · rw [hother, update_self] at hfound
    cases hfound
    exact hfile
  · rw [update_of_ne hother] at hfound
    exact hvalid other hstate found hfound

theorem valid_of_state_files
    (hpending : ∀ file, files (pendingPath d) = some file → file.complete size = true)
    (hcurrent : ∀ file, files (currentPath d) = some file → file.complete size = true)
    (hprevious : ∀ file, files (previousPath d) = some file → file.complete size = true) :
    Valid d size files := by
  intro path hstate file hfile
  simp only [isStateFile, Bool.or_eq_true, decide_eq_true_eq] at hstate
  rcases hstate with (rfl | rfl) | rfl
  · exact hpending file hfile
  · exact hcurrent file hfile
  · exact hprevious file hfile

theorem setKey_setKey {α : Type} (key : String) (old new : α) (entries : List (String × α)) :
    setKey key new (setKey key old entries) = setKey key new entries := by
  induction entries with
  | nil => simp [setKey]
  | cons entry rest ih =>
    by_cases hkey : entry.1 = key
    · simp [setKey, hkey]
    · simp [setKey, hkey, ih]

theorem finalize_finalize (receipt : Receipt) (status s s' t t' : String) :
    (receipt.finalize status s s').finalize status t t' = receipt.finalize status t t' := by
  simp [Receipt.finalize, setKey_setKey]

theorem receipted_current (hcurrent : files (currentPath d) = some file) (finalized : Receipt) :
    receipted d size files finalized (currentPath d) =
      some (if receiptPath d finalized.releaseId = currentPath d then whole size finalized else file) := by
  by_cases hpath : receiptPath d finalized.releaseId = currentPath d
  · rw [receipted, hpath, update_self, if_pos rfl]
  · rw [receipted, update_of_ne (Ne.symm hpath), hcurrent, if_neg hpath]

theorem previous_ended {finalized : Receipt} :
    cleared d (promoted d size (copying d files file file.length) finalized) (previousPath d) =
      some file := by
  rw [cleared, update_of_ne pendingPath_ne_previousPath.symm, promoted,
    update_of_ne previousPath_ne_currentPath, copying, update_self]

theorem Ended.rotation {n : Nat} {after : Files} (hcurrent : files (currentPath d) = some file)
    (hended : Ended d size files pending status n after) :
    ∃ t t', after (currentPath d) = some (whole size (pending.finalize status t t')) ∧
      after (previousPath d) = some (if receiptPath d pending.releaseId = currentPath d then
        whole size (pending.finalize status t t') else file) := by
  cases hended with
  | rotated t t' hfile =>
    refine ⟨t, t', ?_, ?_⟩
    · rw [cleared, update_of_ne pendingPath_ne_currentPath.symm]
      exact update_self ..
    · rw [previous_ended]
      exact hfile.symm.trans (receipted_current hcurrent _)
  | first t t' hfile =>
    rw [receipted_current hcurrent] at hfile
    cases hfile

section Again

variable {pending current found : Receipt} {releaseId status : String} {n : Nat}

/-- While the old release is still current, `finalize` does its work from the pending document. -/
theorem rotates_of_current (hfound : loaded size (files (pendingPath d)) = .document found)
    (hsame : ∀ t t', found.finalize status t t' = pending.finalize status t t')
    (hcurrent : files (currentPath d) = some (whole size current))
    (hpath : receiptPath d found.releaseId ≠ currentPath d) :
    Rotates d size pending current releaseId status files := by
  intro after outcome hcompletes hrefused
  rcases completes_finalize hfound hcompletes with ⟨hrefused', _⟩ | ⟨_, n, hended⟩
  · exact absurd hrefused' hrefused
  · obtain ⟨t, t', hnew, hold⟩ := hended.rotation hcurrent
    rw [if_neg hpath] at hold
    exact ⟨⟨t, t', hsame t t' ▸ hnew⟩, hold⟩

/-- What `finalize` makes the previous release is what it finds current, or the receipt it has put
there. -/
theorem Rotates.previous {file : File} (hfound : loaded size (files (pendingPath d)) = .document found)
    (hcurrent : files (currentPath d) = some file)
    (hrotates : Rotates d size pending current releaseId status files) (t : String) :
    (if receiptPath d found.releaseId = currentPath d then whole size (found.finalize status t t)
      else file) = whole size current := by
  obtain ⟨message, hended⟩ := finish_cmdFinalize releaseId hfound (receipted_current hcurrent
    (found.finalize status t t))
  have hold := (hrotates _ _ (completes_of_finish hended) nofun).2
  rw [previous_ended] at hold
  exact Option.some.inj hold

theorem rotates_iff_of_absent (hpending : files (pendingPath d) = none) :
    Rotates d size pending current releaseId status files ↔
      (∃ t t', files (currentPath d) = some (whole size (pending.finalize status t t'))) ∧
        files (previousPath d) = some (whole size current) := by
  constructor
  · intro hrotates
    have hcompletes : Proc.Completes (exec d size) files (cmdFinalize d releaseId status).run _ _ :=
      Proc.completes_finish ⟨"", none, false⟩
    have hend := completes_finalize_absent hpending hcompletes
    have hplace := hrotates _ _ hcompletes (by rw [hend.1]; exact nofun)
    rwa [hend.2] at hplace
  · intro hplace after outcome hcompletes _
    rw [(completes_finalize_absent hpending hcompletes).2]
    exact hplace

theorem receipted_pending (hpending : files (pendingPath d) = some (whole size pending)) (t t' : String) :
    ∃ found, receipted d size files (pending.finalize status t t') (pendingPath d) =
      some (whole size found) ∧ found.releaseId = pending.releaseId ∧
        ∀ s s', found.finalize status s s' = pending.finalize status s s' := by
  by_cases hpath : receiptPath d pending.releaseId = pendingPath d
  · refine ⟨pending.finalize status t t', ?_, rfl, finalize_finalize pending status t t'⟩
    rw [receipted, ← hpath]
    exact update_self ..
  · refine ⟨pending, ?_, rfl, fun _ _ => rfl⟩
    exact (update_of_ne (Ne.symm hpath) _ files).trans hpending

theorem Stage.pendingFile (hstage : Stage d size files pending status n v)
    (hpending : files (pendingPath d) = some (whole size pending)) :
    ∃ found, v (pendingPath d) = some (whole size found) ∧ found.releaseId = pending.releaseId ∧
      ∀ s s', found.finalize status s s' = pending.finalize status s s' := by
  cases hstage with
  | untouched hn => exact ⟨pending, hpending, rfl, fun _ _ => rfl⟩
  | receipted t t' hn => exact receipted_pending hpending t t'
  | copying t t' hi hfile | promoted t t' hfile | promotedFirst t t' hfile =>
    simpa [Receipts.copying, Receipts.promoted] using receipted_pending hpending t t'

theorem Stage.exists_current {file : File} (hcurrent : files (currentPath d) = some file)
    (hstage : Stage d size files pending status n v) : ∃ file, v (currentPath d) = some file := by
  cases hstage with
  | untouched hn => exact ⟨file, hcurrent⟩
  | receipted t t' hn => exact ⟨_, receipted_current hcurrent _⟩
  | copying t t' hi hfile =>
    rw [Receipts.copying, update_of_ne previousPath_ne_currentPath.symm]
    exact ⟨_, receipted_current hcurrent _⟩
  | promoted | promotedFirst => exact ⟨_, update_self ..⟩

theorem not_rotates_of_overwritten {file : File}
    (hfound : loaded size (files (pendingPath d)) = .document found)
    (hcurrent : files (currentPath d) = some file)
    (hpath : receiptPath d found.releaseId = currentPath d) :
    ¬ Rotates d size pending current releaseId status files := by
  intro hrotates
  have hwritten : ∀ t, found.finalize status t t = current := by
    intro t
    have hprevious := hrotates.previous hfound hcurrent t
    rw [if_pos hpath] at hprevious
    exact congrArg File.receipt hprevious
  have hsame := congrArg Receipt.finalizedAt ((hwritten "0").trans (hwritten "1").symm)
  revert hsame
  simp [Receipt.finalize]

section Elsewhere

variable (hcurrent : files (currentPath d) = some (whole size current))
  (hpath : receiptPath d pending.releaseId ≠ currentPath d)
include hcurrent hpath

theorem receipted_elsewhere (t t' : String) :
    receipted d size files (pending.finalize status t t') (currentPath d) =
      some (whole size current) := by
  rw [receipted_current hcurrent]
  exact congrArg some (if_neg hpath)

theorem Stage.currentFile (hstage : Stage d size files pending status n v) (hn : n ≠ 7 + size current) :
    v (currentPath d) = some (whole size current) := by
  have hreceipted : ∀ t t', Receipts.receipted d size files (pending.finalize status t t')
      (currentPath d) = some (whole size current) := receipted_elsewhere hcurrent hpath
  cases hstage with
  | untouched hn => exact hcurrent
  | receipted t t' hn => exact hreceipted t t'
  | copying t t' hi hfile =>
    rw [Receipts.copying, update_of_ne previousPath_ne_currentPath.symm]
    exact hreceipted t t'
  | promoted t t' hfile =>
    rw [hreceipted t t'] at hfile
    cases hfile
    exact absurd rfl hn
  | promotedFirst t t' hfile =>
    rw [hreceipted t t'] at hfile
    cases hfile

theorem Ended.count (hended : Ended d size files pending status n v) : n = 8 + size current := by
  cases hended with
  | rotated t t' hfile =>
    rw [receipted_elsewhere hcurrent hpath] at hfile
    cases hfile
    rfl
  | first t t' hfile =>
    rw [receipted_elsewhere hcurrent hpath] at hfile
    cases hfile

theorem Stage.valid_iff (hstage : Stage d size files pending status n v)
    (hvalid : Valid d size files) : Valid d size v ↔ ¬ (6 ≤ n ∧ n < 5 + size current) := by
  have hreceipted : ∀ t t', Receipts.receipted d size files (pending.finalize status t t')
      (currentPath d) = some (whole size current) := receipted_elsewhere hcurrent hpath
  have hwritten : ∀ t t', Valid d size (Receipts.receipted d size files (pending.finalize status t t')) :=
    fun t t' => hvalid.update (complete_whole _)
  cases hstage with
  | untouched hn => exact iff_of_true hvalid (by omega)
  | receipted t t' hn => exact iff_of_true (hwritten t t') (by omega)
  | @copying file i t t' hi hfile =>
    rw [hreceipted t t'] at hfile
    cases hfile
    constructor
    · intro hcopy
      have hcomplete := hcopy (previousPath d) (by simp [isStateFile]) _ (update_self ..)
      have hlength : size current ≤ i + 1 := complete_iff.mp hcomplete
      omega
    · intro hn
      have hlength : size current ≤ i + 1 := by omega
      exact (hwritten t t').update (complete_iff.mpr hlength)
  | promoted t t' hfile =>
    rw [hreceipted t t'] at hfile
    cases hfile
    refine iff_of_true (Valid.update ((hwritten t t').update (complete_whole current))
      (complete_whole _)) ?_
    simp only [whole]
    omega
  | promotedFirst t t' hfile =>
    rw [hreceipted t t'] at hfile
    cases hfile

end Elsewhere

/-- A release is live, another pending, and `finalize` is killed after some of its operations. Run
again, it leaves the one current and the other previous, with whole documents at the kill, if and
only if the kill was not inside the copy nor between putting the new release in place and removing
`pending.json`, unless that made no difference; and the receipt was not `current.json` itself. -/
theorem finalize_restartable_iff {rest : Proc FileOp FileOp.Result (Except Exit String)}
    (hpending : files (pendingPath d) = some (whole size pending))
    (hcurrent : files (currentPath d) = some (whole size current))
    (hprevious : ∀ file, files (previousPath d) = some file → file.complete size = true)
    (hreached : Proc.Reached (exec d size) files (cmdFinalize d releaseId status).run n v rest) :
    Valid d size v ∧ Rotates d size pending current releaseId status v ↔
      (receiptPath d pending.releaseId ≠ currentPath d ∧ ¬ (6 ≤ n ∧ n < 5 + size current) ∧
        (n = 7 + size current → v (currentPath d) = some (whole size current))) ∨
      (receiptPath d pending.releaseId = currentPath d ∧ v (pendingPath d) = none ∧
        v (previousPath d) = some (whole size current)) := by
  have hloaded : ∀ {files : Files} {found : Receipt}, files (pendingPath d) = some (whole size found) →
      loaded size (files (pendingPath d)) = .document found := by
    intro files found hfound
    rw [hfound, loaded, if_pos (complete_whole found)]
    rfl
  have hvalid : Valid d size files := by
    refine valid_of_state_files (fun file hfile => ?_) (fun file hfile => ?_) hprevious
    · cases hpending.symm.trans hfile
      exact complete_whole pending
    · cases hcurrent.symm.trans hfile
      exact complete_whole current
  rcases reached_cases (meets_cmdFinalize (hloaded hpending)) hreached with
    hstage | ⟨message, _, hended⟩ | ⟨e, _, hk, _, hfree⟩
  · -- killed on the way: `pending.json` is still there
    obtain ⟨found, hfound, hid, hsame⟩ := hstage.pendingFile hpending
    obtain ⟨file, hfile⟩ := hstage.exists_current hcurrent
    by_cases hpath : receiptPath d pending.releaseId = currentPath d
    · refine iff_of_false (fun h => ?_) ?_
      · exact not_rotates_of_overwritten (hloaded hfound) hfile (by rwa [hid]) h.2
      · rintro (h | h)
        · exact h.1 hpath
        · rw [hfound] at h
          cases h.2.1
    · rw [hstage.valid_iff hcurrent hpath hvalid]
      constructor
      · rintro ⟨hcopy, hrotates⟩
        refine .inl ⟨hpath, hcopy, fun _ => ?_⟩
        have hold := hrotates.previous (hloaded hfound) hfile ""
        rw [if_neg (by rwa [hid])] at hold
        rw [hfile, hold]
      · rintro (⟨_, hcopy, hlast⟩ | h)
        · have hold : v (currentPath d) = some (whole size current) := by
            by_cases hn : n = 7 + size current
            · exact hlast hn
            · exact hstage.currentFile hcurrent hpath hn
          exact ⟨hcopy, rotates_of_current (hloaded hfound) hsame hold (by rwa [hid])⟩
        · exact absurd h.1 hpath
  · -- killed after the end: there is nothing left to do
    have hgone := hended.current.1
    obtain ⟨t, t', hnew, hold⟩ := hended.rotation hcurrent
    have hafter : Valid d size v := by
      refine valid_of_state_files (fun file hfile => ?_) (fun file hfile => ?_) fun file hfile => ?_
      · cases hgone.symm.trans hfile
      · cases hnew.symm.trans hfile
        exact complete_whole _
      · cases hold.symm.trans hfile
        split_ifs <;> exact complete_whole _
    rw [rotates_iff_of_absent hgone]
    by_cases hpath : receiptPath d pending.releaseId = currentPath d
    · constructor
      · exact fun h => .inr ⟨hpath, hgone, h.2.2⟩
      · rintro (h | h)
        · exact absurd hpath h.1
        · exact ⟨hafter, ⟨t, t', hnew⟩, h.2.2⟩
    · rw [if_neg hpath] at hold
      have hn := hended.count hcurrent hpath
      exact iff_of_true ⟨hafter, ⟨t, t', hnew⟩, hold⟩ (.inl ⟨hpath, by omega, by omega⟩)
  · cases hk
    have hpath : receiptPath d pending.releaseId ≠ currentPath d := by
      intro hpath
      rw [hpath, isStateFile_currentPath] at hfree
      cases hfree
    refine iff_of_true ⟨hvalid, ?_⟩ (.inl ⟨hpath, by omega, by omega⟩)
    exact rotates_of_current (hloaded hpending) (fun _ _ => rfl) hcurrent hpath

end Again

def release (releaseId : String) : Receipt where
  service := "crowdrelay"
  releaseId := releaseId
  provenance := none
  phases := [("pending", { timestamp := "2026-01-01T00:00:00Z", status := "started" })]
  rollbackResult := none
  finalizedAt := none

def liveRelease : Receipt :=
  (release "r1").finalize "pass" "2026-01-01T00:00:00Z" "2026-01-01T00:00:00Z"

def rollingOut : Files :=
  update (update (fun _ => none) (pendingPath releasesDir)
    (some (whole textSize (release "r2")))) (currentPath releasesDir) (some (whole textSize liveRelease))

theorem rollingOut_previous : rollingOut (previousPath releasesDir) = none := by decide

def tick : Choice := ⟨"2026-01-02T00:00:00Z", none, false⟩

theorem finalize_restartable_iff_receipted :
    ∃ v rest, Proc.Reached (exec releasesDir textSize) rollingOut
        (cmdFinalize releasesDir "r2" "pass").run 4 v rest ∧
      v (receiptPath releasesDir "r2") ≠ none ∧ Valid releasesDir textSize v ∧
        Rotates releasesDir textSize (release "r2") liveRelease "r2" "pass" v :=
  have hreached : Proc.Reached (exec releasesDir textSize) rollingOut
      (cmdFinalize releasesDir "r2" "pass").run 4 _ _ :=
    .op tick (.op tick (.op tick (.op tick .here)))
  ⟨_, _, hreached, by decide,
    (finalize_restartable_iff rfl rfl (by simp [rollingOut_previous]) hreached).mpr
    (.inl ⟨by decide, by decide, by decide⟩)⟩

/-- Killed when the copy has begun, `finalize` leaves an empty `previous.json`; killed before it
removes `pending.json`, it makes the new release its own predecessor. -/
theorem finalize_not_restartable :
    (∃ v rest, Proc.Reached (exec releasesDir textSize) rollingOut
        (cmdFinalize releasesDir "r2" "pass").run 6 v rest ∧ ¬ Valid releasesDir textSize v) ∧
    ∃ v rest, Proc.Reached (exec releasesDir textSize) rollingOut
        (cmdFinalize releasesDir "r2" "pass").run 10 v rest ∧
      ¬ Rotates releasesDir textSize (release "r2") liveRelease "r2" "pass" v := by
  have hcopying : Proc.Reached (exec releasesDir textSize) rollingOut
      (cmdFinalize releasesDir "r2" "pass").run 6 _ _ :=
    .op tick (.op tick (.op tick (.op tick (.op tick (.op tick .here)))))
  have hpromoted : Proc.Reached (exec releasesDir textSize) rollingOut
      (cmdFinalize releasesDir "r2" "pass").run 10 _ _ :=
    .op tick (.op tick (.op tick (.op tick (.op tick (.op tick (.op tick (.op tick (.op tick
      (.op tick .here)))))))))
  refine ⟨⟨_, _, hcopying, fun hvalid => ?_⟩, _, _, hpromoted, fun hrotates => ?_⟩
  · have hcomplete := hvalid (previousPath releasesDir) (by decide) ⟨liveRelease, 0⟩ (by decide)
    revert hcomplete
    decide
  · have hold := Rotates.previous (show _ = Loaded.document (release "r2") by decide)
      (show _ = some (whole textSize ((release "r2").finalize "pass" tick.clock tick.clock)) by
        decide) hrotates ""
    revert hold
    decide

end Restart

end ControlPlane.Receipts
