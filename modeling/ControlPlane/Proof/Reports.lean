import ControlPlane.Proof.Telemetry

/-!
# Reports in any order

A report behind the recorded heartbeat changes only the time of the check, one that is not replaces
what it carries. So complete reports leave the newest of them, however they interleave.
-/

namespace ControlPlane

open ReadCommitted Store List Option

variable {cfg : Config} {s t u : State} {a : Action Key Call} {tenantId : Uuid}
  {input : RuntimeReportRequest} {row : RuntimeStatusRow} {now : Instant}

def observed (row : RuntimeStatusRow) : RuntimeStatusRow := { row with checkedAt := none }

def absorb (input : RuntimeReportRequest) (row : RuntimeStatusRow) : RuntimeStatusRow :=
  observed (mergeReport input 0 row)

theorem absorb_observed : absorb input (observed row) = absorb input row := by
  unfold absorb mergeReport observed
  split <;> rfl

theorem observed_mergeReport : observed (mergeReport input now row) = absorb input row := by
  unfold absorb mergeReport observed
  split <;> rfl

theorem absorb_of_older (holder : notOlder input.lastHeartbeatAt row.lastHeartbeatAt = false) :
    absorb input row = observed row := by
  simp [absorb, mergeReport, observed, holder]

theorem notOlder_self {reported stored : Option Instant} : notOlder reported (reported.or stored) = true := by
  cases reported <;> simp [notOlder]

theorem absorb_absorb : absorb input (absorb input row) = absorb input row := by
  by_cases hnewer : notOlder input.lastHeartbeatAt row.lastHeartbeatAt = true
  · have hagain : notOlder input.lastHeartbeatAt (absorb input row).lastHeartbeatAt = true := by
      simp [absorb, mergeReport, observed, hnewer, notOlder_self]
    unfold absorb mergeReport at hagain ⊢
    simp only [hnewer, if_true] at hagain ⊢
    simp [observed, ← Option.or_assoc]
  · rw [Bool.not_eq_true] at hnewer
    rw [absorb_of_older hnewer, absorb_observed, absorb_of_older hnewer]

theorem absorb_reportedRow :
    absorb input (observed (reportedRow tenantId input now)) =
      observed (reportedRow tenantId input now) := by
  have hnewer : notOlder input.lastHeartbeatAt input.lastHeartbeatAt = true := by
    cases input.lastHeartbeatAt <;> simp [notOlder]
  simp [absorb, mergeReport, observed, reportedRow, hnewer]

def reportOn (tenantId : Uuid) (input : RuntimeReportRequest) (old : Option RuntimeStatusRow) :
    RuntimeStatusRow :=
  old.elim (observed (reportedRow tenantId input 0)) (absorb input)

variable {old : Option RuntimeStatusRow}

theorem absorb_reportOn :
    absorb input (reportOn tenantId input old) = reportOn tenantId input old := by
  cases old with
  | none => exact absorb_reportedRow
  | some row => exact absorb_absorb

theorem observed_of_chain {call : Call} {readings : List Instant}
    (hcall : call.telemetry = some (.report input))
    (hchain : Chain (callWrites cfg call) readings (.runtime tenantId) old row) :
    observed row = reportOn tenantId input old := by
  refine hchain.relates (R := fun old new => observed new = reportOn tenantId input old) ?_ ?_
  · intro _ _ old new _ hwrite
    cases hwrite with
    | report slug input' hcall' now =>
      obtain rfl : input' = input := by simpa [hcall', Call.telemetry] using hcall
      cases old with
      | none => rfl
      | some row => exact observed_mergeReport
    | deployed _ _ _ _ hcall' => simp [hcall', Call.telemetry] at hcall
  · intro old mid new hfirst hsecond
    calc observed new = absorb input mid := hsecond
      _ = absorb input (observed mid) := absorb_observed.symm
      _ = reportOn tenantId input old := by rw [hfirst, absorb_reportOn]

theorem observed_step (hholds : (protocol cfg).Holds t) (hstep : step (server cfg) t a = some u)
    (hreport : Step.telemetry tenantId ⟨t, a, u⟩ = some (.report input)) :
    ∃ new : RuntimeStatusRow, u.committed.lookup (.runtime tenantId) = some new ∧
      observed new = reportOn tenantId input (t.committed.lookup (.runtime tenantId)) := by
  obtain ⟨call, hcall, htelemetry⟩ := bind_eq_some_iff.mp hreport
  obtain ⟨new, readings, hnew, hchain⟩ := Protocol.chain_of_committing hstep hholds hcall
  exact ⟨new, hnew, observed_of_chain htelemetry hchain⟩

/-- The report carries every column of the runtime row, the heartbeat among them. -/
structure RuntimeReportRequest.Complete (input : RuntimeReportRequest) : Prop where
  apiHealthy : input.apiHealthy.isSome = true
  workerHealthy : input.workerHealthy.isSome = true
  schemaVersion : input.schemaVersion.isSome = true
  deployedSha : input.deployedSha.isSome = true
  outboxPending : input.outboxPending.isSome = true
  queueLag : input.queueLag.isSome = true
  awaitingApproval : input.awaitingApproval.isSome = true
  northStarFans : input.northStarFans.isSome = true
  lastHeartbeatAt : input.lastHeartbeatAt.isSome = true

theorem absorb_of_complete (hcomplete : input.Complete) (hkeyed : row.tenantId = tenantId)
    (hnewer : notOlder input.lastHeartbeatAt row.lastHeartbeatAt = true) :
    absorb input row = observed (reportedRow tenantId input 0) := by
  obtain ⟨h₁, h₂, h₃, h₄, h₅, h₆, h₇, h₈, h₉⟩ := hcomplete
  simp [absorb, mergeReport, observed, reportedRow, hnewer, hkeyed, or_of_isSome, h₁, h₂, h₃, h₄, h₅,
    h₆, h₇, h₈, h₉]

def telemetries (tenantId : Uuid) (history : List Step) : List Telemetry :=
  history.filterMap (·.telemetry tenantId)

def stamp (tenantId : Uuid) (input : RuntimeReportRequest) : Option (Instant × RuntimeStatusRow) :=
  input.lastHeartbeatAt.map (·, observed (reportedRow tenantId input 0))

def rowStamp (old : Option RuntimeStatusRow) : Option (Instant × RuntimeStatusRow) :=
  old.bind fun row => row.lastHeartbeatAt.map (·, observed row)

def stamps (tenantId : Uuid) (reports : List RuntimeReportRequest) (old : Option RuntimeStatusRow) :
    List (Instant × RuntimeStatusRow) :=
  reports.filterMap (stamp tenantId) ++ (rowStamp old).toList

def Newest (old new : Option RuntimeStatusRow) (xs : List (Instant × RuntimeStatusRow)) : Prop :=
  (newest xs).elim (new = old) fun x => rowStamp new = some x

variable {x : Instant × RuntimeStatusRow}

theorem rowStamp_eq_some :
    rowStamp old = some x ↔
      ∃ row, old = some row ∧ row.lastHeartbeatAt = some x.1 ∧ observed row = x.2 := by
  obtain ⟨heartbeat, columns⟩ := x
  simp only [rowStamp, bind_eq_some_iff, map_eq_some_iff, Prod.mk.injEq]
  constructor
  · rintro ⟨row, hrow, beat, hbeat, rfl, rfl⟩
    exact ⟨row, hrow, hbeat, rfl⟩
  · rintro ⟨row, hrow, hbeat, hcolumns⟩
    exact ⟨row, hrow, heartbeat, hbeat, rfl, hcolumns⟩

theorem newest_init (old : Option RuntimeStatusRow) :
    Newest old old (stamps tenantId [] old) := by
  unfold Newest stamps
  cases hstamp : rowStamp old with
  | none => rfl
  | some x => simp [newest]

theorem Newest.cons {before : Option RuntimeStatusRow} {heartbeat : Instant}
    {xs : List (Instant × RuntimeStatusRow)} {new : RuntimeStatusRow}
    (hnewest : Newest old before xs) (hempty : newest xs = none → rowStamp old = none)
    (hkeyed : ∀ row, before = some row → row.tenantId = tenantId) (hcomplete : input.Complete)
    (hbeat : input.lastHeartbeatAt = some heartbeat)
    (hnew : observed new = reportOn tenantId input before) :
    Newest old (some new) ((heartbeat, observed (reportedRow tenantId input 0)) :: xs) := by
  have hreplaced (hrow : reportOn tenantId input before = observed (reportedRow tenantId input 0)) :
      rowStamp (some new) = some (heartbeat, observed (reportedRow tenantId input 0)) := by
    rw [rowStamp_eq_some]
    refine ⟨new, rfl, ?_, hnew.trans hrow⟩
    calc new.lastHeartbeatAt = (observed new).lastHeartbeatAt := rfl
      _ = (observed (reportedRow tenantId input 0)).lastHeartbeatAt := by rw [hnew, hrow]
      _ = some heartbeat := hbeat
  unfold Newest at hnewest ⊢
  cases hxs : newest xs with
  | none =>
    rw [hxs] at hnewest
    obtain rfl : before = old := hnewest
    have hunstamped := hempty hxs
    rw [newest, hxs]
    apply hreplaced
    cases before with
    | none => rfl
    | some row =>
      have hnone : row.lastHeartbeatAt = none := by simpa [rowStamp] using hunstamped
      exact absorb_of_complete hcomplete (hkeyed row rfl) (by rw [hbeat, hnone]; rfl)
  | some x =>
    rw [hxs] at hnewest
    obtain ⟨row, rfl, hstored, hcolumns⟩ := rowStamp_eq_some.mp hnewest
    rw [newest, hxs, all_some]
    split_ifs with hle
    · apply hreplaced
      refine absorb_of_complete hcomplete (hkeyed row rfl) ?_
      rw [hbeat, hstored]
      exact hle
    · have holder : notOlder input.lastHeartbeatAt row.lastHeartbeatAt = false := by
        rw [hbeat, hstored]
        simpa [notOlder] using hle
      have hkept : observed new = observed row := hnew.trans (absorb_of_older holder)
      change rowStamp (some new) = some x
      rw [rowStamp_eq_some]
      refine ⟨new, rfl, ?_, hkept.trans hcolumns⟩
      calc new.lastHeartbeatAt = (observed new).lastHeartbeatAt := rfl
        _ = (observed row).lastHeartbeatAt := by rw [hkept]
        _ = some x.1 := hstored

variable {reports : List RuntimeReportRequest}

theorem rowStamp_of_newest_none (hnone : newest (stamps tenantId reports old) = none) :
    rowStamp old = none := by
  cases hstamp : rowStamp old with
  | none => rfl
  | some x =>
    have hmem : x ∈ stamps tenantId reports old := by simp [stamps, hstamp]
    obtain ⟨y, hy, -⟩ := le_newest hmem
    rw [hnone] at hy
    cases hy

theorem reportOn_tenantId (hkeyed : ∀ row, old = some row → row.tenantId = tenantId) :
    (reportOn tenantId input old).tenantId = tenantId := by
  cases old with
  | none => rfl
  | some row =>
    have hsame : (absorb input row).tenantId = row.tenantId := by
      unfold absorb mergeReport observed
      split <;> rfl
    exact hsame.trans (hkeyed row rfl)

section Order

variable {τ α : Type} [LinearOrder τ] {xs xs' ys : List (τ × α)} {x y : τ × α}

theorem newest_mem_left (hnewest : newest (xs ++ ys) = some x) (hmem : y ∈ xs)
    (hle : ∀ z ∈ ys, z.1 ≤ y.1) : x ∈ xs := by
  induction xs generalizing y with
  | nil => cases hmem
  | cons w ws ih =>
    rw [cons_append, newest] at hnewest
    split_ifs at hnewest with hall
    · obtain rfl := some.inj hnewest
      exact mem_cons_self
    · rw [hnewest, all_some, decide_eq_true_eq, not_le] at hall
      apply mem_cons_of_mem
      obtain rfl | hmem := mem_cons.mp hmem
      · obtain hws | hys := mem_append.mp (newest_mem hnewest)
        · exact hws
        · exact absurd (hle x hys) (not_le.mpr hall)
      · exact ih hnewest hmem hle

theorem newest_append_perm (hperm : xs.Perm xs')
    (hdistinct : ∀ x ∈ xs, ∀ y ∈ xs, x.1 = y.1 → x = y) (hys : ∀ x ∈ ys, ∀ y ∈ ys, x = y) :
    newest (xs ++ ys) = newest (xs' ++ ys) := by
  have hmem {z : τ × α} : z ∈ xs ++ ys ↔ z ∈ xs' ++ ys := (hperm.append_right ys).mem_iff
  cases hx : newest (xs ++ ys) with
  | none =>
    cases hx' : newest (xs' ++ ys) with
    | none => rfl
    | some x' =>
      obtain ⟨z, hz, -⟩ := le_newest (hmem.mpr (newest_mem hx'))
      rw [hx] at hz
      cases hz
  | some x =>
    obtain ⟨x', hx', hle⟩ := le_newest (hmem.mp (newest_mem hx))
    obtain ⟨z, hz, hge⟩ := le_newest (hmem.mpr (newest_mem hx'))
    rw [hx, some.injEq] at hz
    subst hz
    have hsame : x.1 = x'.1 := le_antisymm hle hge
    rw [hx']
    congr 1
    -- all stamps are at most the common one, so both values come from the same part
    have hxs {z : τ × α} (hz : z ∈ xs) (hstamp : z.1 = x.1) : x ∈ xs := by
      refine newest_mem_left hx hz fun w hw => ?_
      obtain ⟨v, hv, hwv⟩ := le_newest (mem_append_right xs hw)
      rw [hx, some.injEq] at hv
      rwa [hstamp, hv]
    have hxs' {z : τ × α} (hz : z ∈ xs') (hstamp : z.1 = x'.1) : x' ∈ xs' := by
      refine newest_mem_left hx' hz fun w hw => ?_
      obtain ⟨v, hv, hwv⟩ := le_newest (mem_append_right xs' hw)
      rw [hx', some.injEq] at hv
      rwa [hstamp, hv]
    obtain hleft | hright := mem_append.mp (newest_mem hx)
    · have hleft' := hxs' (hperm.mem_iff.mp hleft) hsame
      exact hdistinct x hleft x' (hperm.mem_iff.mpr hleft') hsame
    · obtain hleft' | hright' := mem_append.mp (newest_mem hx')
      · have hleft := hxs (hperm.mem_iff.mpr hleft') hsame.symm
        exact hdistinct x hleft x' (hperm.mem_iff.mpr hleft') hsame
      · exact hys x hright x' hright'

end Order

/-- Some run commits exactly the given reports to the tenant's runtime row, latest first. -/
def Commits (cfg : Config) (tenantId : Uuid) (s : State) (reports : List RuntimeReportRequest)
    (t : State) : Prop :=
  ∃ history, Run (server cfg) anyStep s history t ∧
    telemetries tenantId history = reports.map .report

structure Distinguished (reports : List RuntimeReportRequest) : Prop where
  complete : ∀ input ∈ reports, input.Complete
  distinct : ∀ input ∈ reports, ∀ input' ∈ reports,
    input.lastHeartbeatAt = input'.lastHeartbeatAt → input = input'

theorem mem_filterMap_stamp :
    x ∈ reports.filterMap (stamp tenantId) ↔ ∃ input ∈ reports,
      input.lastHeartbeatAt = some x.1 ∧ observed (reportedRow tenantId input 0) = x.2 := by
  obtain ⟨heartbeat, columns⟩ := x
  simp only [mem_filterMap, stamp, map_eq_some_iff, Prod.mk.injEq]
  constructor
  · rintro ⟨input, hinput, beat, hbeat, rfl, rfl⟩
    exact ⟨input, hinput, hbeat, rfl⟩
  · rintro ⟨input, hinput, hbeat, hcolumns⟩
    exact ⟨input, hinput, heartbeat, hbeat, rfl, hcolumns⟩

theorem stamps_distinct (hreports : Distinguished reports) :
    ∀ x ∈ reports.filterMap (stamp tenantId), ∀ y ∈ reports.filterMap (stamp tenantId),
      x.1 = y.1 → x = y := by
  intro x hx y hy hstamp
  obtain ⟨input, hinput, hbeat, hcolumns⟩ := mem_filterMap_stamp.mp hx
  obtain ⟨input', hinput', hbeat', hcolumns'⟩ := mem_filterMap_stamp.mp hy
  obtain rfl : input = input' := by
    apply hreports.distinct input hinput input' hinput'
    rw [hbeat, hbeat', hstamp]
  exact Prod.ext hstamp (hcolumns.symm.trans hcolumns')

def observedRow (t : State) (tenantId : Uuid) : Option RuntimeStatusRow :=
  (t.committed.lookup (.runtime tenantId)).map observed

theorem observedRow_of_rowStamp
    (hstamp : rowStamp (t.committed.lookup (.runtime tenantId)) = some x) :
    observedRow t tenantId = some x.2 := by
  obtain ⟨row, hrow, -, hcolumns⟩ := rowStamp_eq_some.mp hstamp
  rw [observedRow, hrow, map_some, hcolumns]

section Newest

variable (hboot : Booted cfg s)
  (hkeyed : ∀ row : RuntimeStatusRow, s.committed.lookup (.runtime tenantId) = some row →
    row.tenantId = tenantId)
include hboot hkeyed

/-- A run whose commits to the row are complete reports leaves the newest of them, unless the row it
began with is newer. -/
theorem newest_of_run {history : List Step}
    (hrun : Run (server cfg) anyStep s history t)
    (hreports : telemetries tenantId history = reports.map .report)
    (hcomplete : ∀ input ∈ reports, input.Complete) :
    Newest (s.committed.lookup (.runtime tenantId)) (t.committed.lookup (.runtime tenantId))
      (stamps tenantId reports (s.committed.lookup (.runtime tenantId))) ∧
    ∀ row : RuntimeStatusRow, t.committed.lookup (.runtime tenantId) = some row →
      row.tenantId = tenantId := by
  induction hrun generalizing reports with
  | nil =>
    obtain rfl : reports = [] := by simpa [telemetries] using hreports
    exact ⟨newest_init _, hkeyed⟩
  | @cons history t a u hprior _ hstep ih =>
    have hholds := holds_of_reaches hboot hprior.reaches
    unfold telemetries at hreports
    cases htelemetry : Step.telemetry tenantId ⟨t, a, u⟩ with
    | none =>
      rw [filterMap_cons_none htelemetry] at hreports
      rw [lookup_of_no_telemetry hholds hstep htelemetry]
      exact ih hreports hcomplete
    | some event =>
      rw [filterMap_cons_some htelemetry] at hreports
      obtain ⟨input, rest, rfl, rfl, hrest⟩ := map_eq_cons_iff.mp hreports.symm
      obtain ⟨hinput, hothers⟩ := forall_mem_cons.mp hcomplete
      obtain ⟨hnewest, hbefore⟩ := ih hrest.symm hothers
      obtain ⟨new, hnew, hobserved⟩ := observed_step hholds hstep htelemetry
      obtain ⟨heartbeat, hbeat⟩ := isSome_iff_exists.mp hinput.lastHeartbeatAt
      have hstamp : stamp tenantId input =
          some (heartbeat, observed (reportedRow tenantId input 0)) := by
        rw [stamp, hbeat, map_some]
      rw [hnew]
      refine ⟨?_, fun row hrow => ?_⟩
      · rw [stamps, filterMap_cons_some hstamp]
        exact hnewest.cons rowStamp_of_newest_none hbefore hinput hbeat hobserved
      · obtain rfl := some.inj hrow
        calc new.tenantId = (observed new).tenantId := rfl
          _ = tenantId := by rw [hobserved, reportOn_tenantId hbefore]

theorem newest_report_stands {last : RuntimeReportRequest}
    (hcommits : Commits cfg tenantId s reports t) (hreports : Distinguished reports)
    (hlast : last ∈ reports)
    (hnewest : ∀ input ∈ reports, notOlder last.lastHeartbeatAt input.lastHeartbeatAt = true)
    (hstored : ∀ row : RuntimeStatusRow, s.committed.lookup (.runtime tenantId) = some row →
      notOlder last.lastHeartbeatAt row.lastHeartbeatAt = true) :
    observedRow t tenantId = some (observed (reportedRow tenantId last 0)) := by
  obtain ⟨history, hrun, htelemetries⟩ := hcommits
  obtain ⟨hrow, -⟩ := newest_of_run hboot hkeyed hrun htelemetries hreports.complete
  obtain ⟨heartbeat, hbeat⟩ :=
    isSome_iff_exists.mp (hreports.complete last hlast).lastHeartbeatAt
  have hmem : (heartbeat, observed (reportedRow tenantId last 0)) ∈
      reports.filterMap (stamp tenantId) := mem_filterMap_stamp.mpr ⟨last, hlast, hbeat, rfl⟩
  obtain ⟨x, hx, hle⟩ := le_newest (mem_append_left
    (rowStamp (s.committed.lookup (.runtime tenantId))).toList hmem)
  -- the stored row is not newer than the report, so the newest stamp is that of a report
  have hx' : x ∈ reports.filterMap (stamp tenantId) := by
    refine newest_mem_left hx hmem fun z hz => ?_
    obtain ⟨row, hstart, hbeat', -⟩ := rowStamp_eq_some.mp (mem_toList.mp hz)
    have hnotOlder := hstored row hstart
    rw [hbeat, hbeat'] at hnotOlder
    simpa [notOlder] using hnotOlder
  obtain ⟨input, hinput, hbeat', -⟩ := mem_filterMap_stamp.mp hx'
  have hge : x.1 ≤ heartbeat := by
    have hnotOlder := hnewest input hinput
    rw [hbeat, hbeat'] at hnotOlder
    simpa [notOlder] using hnotOlder
  have hsame := stamps_distinct hreports _ hmem x hx' (le_antisymm hle hge)
  unfold Newest at hrow
  rw [show newest (stamps tenantId reports _) = some x from hx] at hrow
  rw [observedRow_of_rowStamp hrow, ← hsame]

theorem observedRow_perm {reports' : List RuntimeReportRequest}
    (hcommits : Commits cfg tenantId s reports t) (hcommits' : Commits cfg tenantId s reports' u)
    (hreports : Distinguished reports) (hperm : reports.Perm reports') :
    observedRow t tenantId = observedRow u tenantId := by
  obtain ⟨history, hrun, htelemetries⟩ := hcommits
  obtain ⟨history', hrun', htelemetries'⟩ := hcommits'
  obtain ⟨hrow, -⟩ := newest_of_run hboot hkeyed hrun htelemetries hreports.complete
  obtain ⟨hrow', -⟩ := newest_of_run hboot hkeyed hrun' htelemetries'
    fun input hinput => hreports.complete input (hperm.mem_iff.mpr hinput)
  have hsame : newest (stamps tenantId reports (s.committed.lookup (.runtime tenantId))) =
      newest (stamps tenantId reports' (s.committed.lookup (.runtime tenantId))) := by
    refine newest_append_perm (hperm.filterMap _) (stamps_distinct hreports) fun x hx y hy => ?_
    exact some.inj ((mem_toList.mp hx).symm.trans (mem_toList.mp hy))
  unfold Newest at hrow hrow'
  rw [← hsame] at hrow'
  cases hx : newest (stamps tenantId reports (s.committed.lookup (.runtime tenantId))) with
  | none =>
    rw [hx] at hrow hrow'
    have heq : t.committed.lookup (.runtime tenantId) = u.committed.lookup (.runtime tenantId) :=
      hrow.trans hrow'.symm
    rw [observedRow, heq, observedRow]
  | some x =>
    rw [hx] at hrow hrow'
    rw [observedRow_of_rowStamp hrow, observedRow_of_rowStamp hrow']

end Newest

theorem heartbeat_le_levelAfter {stored : Instant} (event : Telemetry)
    (hstored : row.lastHeartbeatAt = some stored) :
    ∃ stored', (levelAfter (levelOf (some row)) event).heartbeat = some stored' ∧ stored ≤ stored' := by
  cases event with
  | completion => exact ⟨stored, hstored, le_refl stored⟩
  | report input =>
    simp only [levelAfter, levelOf, bind_some, hstored]
    split_ifs with hnewer
    · cases hreported : input.lastHeartbeatAt with
      | none => exact ⟨stored, rfl, le_refl stored⟩
      | some reported =>
        rw [hreported] at hnewer
        exact ⟨reported, rfl, by simpa [notOlder] using hnewer⟩
    · exact ⟨stored, rfl, le_refl stored⟩

/-- **Reports in any order.** A run that commits complete reports with different heartbeats leaves
the row of the newest, unless the row it began with is newer; the same reports leave the same row,
up to when it was checked. Heartbeats only move forward, and a report behind the stored one changes
only `checked_at`. -/
theorem reports_order_independent (hboot : Booted cfg s)
    (hkeyed : ∀ row : RuntimeStatusRow, s.committed.lookup (.runtime tenantId) = some row →
      row.tenantId = tenantId) :
    (∀ reports t last, Commits cfg tenantId s reports t → Distinguished reports → last ∈ reports →
      (∀ input ∈ reports, notOlder last.lastHeartbeatAt input.lastHeartbeatAt = true) →
      (∀ row : RuntimeStatusRow, s.committed.lookup (.runtime tenantId) = some row →
        notOlder last.lastHeartbeatAt row.lastHeartbeatAt = true) →
      observedRow t tenantId = some (observed (reportedRow tenantId last 0))) ∧
    (∀ reports reports' t t', Commits cfg tenantId s reports t → Commits cfg tenantId s reports' t' →
      Distinguished reports → reports.Perm reports' → observedRow t tenantId = observedRow t' tenantId) ∧
    ∀ t a u (row : RuntimeStatusRow), Reaches (server cfg) anyStep s t →
      step (server cfg) t a = some u → t.committed.lookup (.runtime tenantId) = some row →
      ∃ row' : RuntimeStatusRow, u.committed.lookup (.runtime tenantId) = some row' ∧
        (∀ stored, row.lastHeartbeatAt = some stored →
          ∃ stored', row'.lastHeartbeatAt = some stored' ∧ stored ≤ stored') ∧
        ∀ input, Step.telemetry tenantId ⟨t, a, u⟩ = some (.report input) →
          notOlder input.lastHeartbeatAt row.lastHeartbeatAt = false →
          observed row' = observed row := by
  refine ⟨?_, ?_, ?_⟩
  · intro reports t last hcommits hreports hlast hnewest hstored
    exact newest_report_stands hboot hkeyed hcommits hreports hlast hnewest hstored
  · intro reports reports' t t' hcommits hcommits' hreports hperm
    exact observedRow_perm hboot hkeyed hcommits hcommits' hreports hperm
  · intro t a u row hreach hstep hrow
    have hholds := holds_of_reaches hboot hreach
    cases htelemetry : Step.telemetry tenantId ⟨t, a, u⟩ with
    | none =>
      refine ⟨row, (lookup_of_no_telemetry hholds hstep htelemetry).trans hrow, ?_, ?_⟩
      · exact fun stored hstored => ⟨stored, hstored, le_refl stored⟩
      · intro input hinput
        cases hinput
    | some event =>
      obtain ⟨new, hnew, hlevelled⟩ := levelled_of_telemetry hholds hstep htelemetry
      rw [hrow] at hlevelled
      refine ⟨new, hnew, fun stored hstored => ?_, fun input hinput holder => ?_⟩
      · obtain ⟨stored', hbeat, hle⟩ := heartbeat_le_levelAfter event hstored
        rw [← hlevelled] at hbeat
        exact ⟨stored', hbeat, hle⟩
      · rw [← htelemetry] at hinput
        obtain ⟨new', hnew', hobserved⟩ := observed_step hholds hstep hinput
        obtain rfl := some.inj (hnew.symm.trans hnew')
        rw [hobserved, hrow]
        exact absorb_of_older holder

def demoFullReport (fans : Int) (heartbeat : Instant) : RuntimeReportRequest where
  apiHealthy := some true
  workerHealthy := some true
  schemaVersion := some 7
  deployedSha := some "0123456789012345678901234567890123456789"
  outboxPending := some 0
  queueLag := some 0
  awaitingApproval := some 0
  northStarFans := some fans
  redditHalted := none
  repliesWaiting := none
  cutCandidateLanes := none
  lastHeartbeatAt := some heartbeat

def demoReports (first second : RuntimeReportRequest) : List (Action Key Call) :=
  alone 2 (.report "acme" first) 9 ++ alone 3 (.report "acme" second) 9

theorem demo_commits (first second : RuntimeReportRequest)
    (hrun : (recordSchedule (server demoConfig) [] demoState (demoReports first second)).map
      (fun r => telemetries 1 r.1) = some [.report second, .report first]) :
    ∃ t, Commits demoConfig 1 demoState [second, first] t := by
  obtain ⟨⟨history, t⟩, hschedule, htelemetries⟩ := map_eq_some_iff.mp hrun
  exact ⟨t, history, run_of_recordSchedule hschedule, htelemetries⟩

theorem reports_order_independent_twice :
    ∃ t t', Commits demoConfig 1 demoState [demoFullReport 20 1, demoFullReport 10 0] t ∧
      Commits demoConfig 1 demoState [demoFullReport 10 0, demoFullReport 20 1] t' ∧
      observedRow t 1 = some (observed (reportedRow 1 (demoFullReport 20 1) 0)) ∧
      observedRow t 1 = observedRow t' 1 := by
  obtain ⟨t, hcommits⟩ := demo_commits (demoFullReport 10 0) (demoFullReport 20 1) (by decide)
  obtain ⟨t', hcommits'⟩ := demo_commits (demoFullReport 20 1) (demoFullReport 10 0) (by decide)
  have hreports : Distinguished [demoFullReport 20 1, demoFullReport 10 0] := by
    constructor
    · intro input hinput
      obtain rfl | rfl := by simpa using hinput
      · exact ⟨rfl, rfl, rfl, rfl, rfl, rfl, rfl, rfl, rfl⟩
      · exact ⟨rfl, rfl, rfl, rfl, rfl, rfl, rfl, rfl, rfl⟩
    · decide
  have hkeyed : ∀ row : RuntimeStatusRow, demoState.committed.lookup (.runtime 1) = some row →
      row.tenantId = 1 := by
    intro row hrow
    cases hrow
  obtain ⟨hstands, hsame, -⟩ := reports_order_independent (demo_booted demoConfig) hkeyed
  refine ⟨t, t', hcommits, hcommits', ?_, ?_⟩
  · apply hstands _ t _ hcommits hreports mem_cons_self
    · decide
    · intro row hrow
      cases hrow
  · exact hsame _ _ t t' hcommits hcommits' hreports (List.Perm.swap _ _ _)

end ControlPlane
