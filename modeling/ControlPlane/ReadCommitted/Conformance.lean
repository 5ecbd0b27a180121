import ControlPlane.ReadCommitted.Contract

/-!
# Following a session through the steps of the system

What a step of the system is, the lock discipline it keeps, and how a session goes on conforming to
its contract.
-/

namespace ReadCommitted

open Option

variable {Key : Type} {Row : Key → Type} {Index Req Resp Upstream Call α : Type}
  {V : Server Row Index Req Resp Upstream Call α} {s t : Sys Row Index Req Resp Upstream Call α}
  {sid other : Nat} {session σ : Session Row Req Resp Call α} {sh sh' : Shared Row Index Upstream}
  {a : Action Key Call} {call : Call}

@[simp]
theorem setSession_self (sid : Nat) (session : Session Row Req Resp Call α)
    (sh : Shared Row Index Upstream) : (s.setSession sid session sh).sessions sid = some session :=
  Function.update_self ..

theorem setSession_of_ne (hne : other ≠ sid) (session : Session Row Req Resp Call α)
    (sh : Shared Row Index Upstream) :
    (s.setSession sid session sh).sessions other = s.sessions other :=
  Function.update_of_ne hne ..

theorem setSession_eq_some : (s.setSession sid session sh).sessions other = some σ ↔
      other = sid ∧ session = σ ∨ other ≠ sid ∧ s.sessions other = some σ := by
  by_cases heq : other = sid
  · subst heq
    simp
  · simp [setSession_of_ne heq, heq]

theorem setSession_eq_none : (s.setSession sid session sh).sessions other = none ↔
      other ≠ sid ∧ s.sessions other = none := by
  by_cases heq : other = sid
  · subst heq
    simp
  · simp [setSession_of_ne heq, heq]

@[simp]
theorem setSession_toShared (sid : Nat) (session : Session Row Req Resp Call α)
    (sh : Shared Row Index Upstream) : (s.setSession sid session sh).toShared = sh := rfl

theorem call_setSession (hσ : s.sessions sid = some σ)
    (hcall : (s.sessions other).map (·.call) = some session.call) :
    ∃ σ', (s.setSession other session sh).sessions sid = some σ' ∧ σ'.call = σ.call := by
  by_cases heq : sid = other
  · subst heq
    rw [hσ, map_some, some.injEq] at hcall
    exact ⟨_, setSession_self .., hcall.symm⟩
  · exact ⟨σ, by rw [setSession_of_ne heq, hσ], rfl⟩

/-- Open transactions have locked what they wrote, and a session that has not begun or has died
holds nothing. -/
structure Disciplined (s : Sys Row Index Req Resp Upstream Call α) : Prop where
  locksWrites : ∀ sid σ, s.sessions sid = some σ → LocksWrites s.toShared sid σ.txn
  unstarted : ∀ sid, s.sessions sid = none → ∀ key, s.locks key ≠ some sid

theorem disciplined_of_atRest (hrest : s.AtRest) : Disciplined s where
  locksWrites sid σ hσ := by rw [hrest.1 sid] at hσ; simp at hσ
  unstarted sid _ key := by rw [hrest.2.1 key]; simp

def Local.aware (present : Key → Prop) : Local Row := { Local.fresh with present := present }

variable [DecidableEq Key]

theorem Disciplined.setSession (hdisc : Disciplined s) (hown : LocksWrites sh' sid session.txn)
    (hframe : Framed sid s.toShared sh') :
    Disciplined (s.setSession sid session sh') where
  locksWrites other σ hσ := by
    obtain ⟨rfl, rfl⟩ | ⟨heq, hσ⟩ := setSession_eq_some.mp hσ
    · exact hown
    · intro key hmem
      exact (hframe.locks other heq key).mpr (hdisc.locksWrites other σ hσ key hmem)
  unstarted other hnone key := by
    obtain ⟨hne, hnone⟩ := setSession_eq_none.mp hnone
    intro hlock
    exact hdisc.unstarted other hnone key ((hframe.locks other hne key).mp hlock)

def Conforms (C : Contract Row) (Q : α → Local Row → Prop)
    (sh : Shared Row Index Upstream) (sid : Nat) (σ : Session Row Req Resp Call α) : Prop :=
  ∀ p, σ.prog = some p → ∃ l, Matches sh sid σ.txn l ∧ p.wp C l Q

variable {C : Contract Row} {Q : α → Local Row → Prop}

theorem conforms_start (hdisc : Disciplined s) (hnew : s.sessions sid = none)
    (hwp : (V.handler call).wp C .fresh Q) :
    Conforms C Q s.toShared sid (⟨call, some (V.handler call), .idle⟩ :
      Session Row Req Resp Call α) := by
  intro p hp
  obtain rfl := some.inj hp
  exact ⟨.fresh, .fresh (hdisc.unstarted sid hnew), hwp⟩

theorem Conforms.frame (hconf : Conforms C Q sh sid σ) (hne : sid ≠ other)
    (hframe : Framed other sh sh') : Conforms C Q sh' sid σ := by
  intro p hp
  obtain ⟨l, hm, hwp⟩ := hconf p hp
  exact ⟨l, hm.frame hne hframe, hwp⟩

/-- What is left of a program after it has only begun a transaction and asked for its time. -/
inductive Prog.Begun : Prog Row Req Resp α → Prog Row Req Resp α → Prop
  | refl (p : Prog Row Req Resp α) : Begun p p
  | begin {p : Prog Row Req Resp α} {next : (Op.begin : Op Row Req).Result Resp → Prog Row Req Resp α}
      (hbegun : Begun p (.op .begin next)) : Begun p (next ())
  | sqlNow {p : Prog Row Req Resp α}
      {next : (Op.sqlNow : Op Row Req).Result Resp → Prog Row Req Resp α} (now : Instant)
      (hbegun : Begun p (.op .sqlNow next)) : Begun p (next now)

structure Untouched (V : Server Row Index Req Resp Upstream Call α)
    (sh : Shared Row Index Upstream) (sid : Nat) (σ : Session Row Req Resp Call α) : Prop where
  prog : ∃ p, σ.prog = some p ∧ Prog.Begun (V.handler σ.call) p
  readings : σ.txn.readings = []
  writes : σ.txn.writes = ∅
  saved : σ.txn.saved = ∅
  locks : ∀ key, sh.locks key ≠ some sid

theorem Prog.Begun.wp {p q : Prog Row Req Resp α} {l : Local Row} (hbegun : Begun p q)
    (hwp : p.wp C l Q) : q.wp C l Q := by
  induction hbegun with
  | refl => exact hwp
  | begin _ ih => exact ih.2
  | sqlNow now _ ih => exact ih.2 now

/-- Such a session conforms to whatever its handler meets, from rows known to be there. -/
theorem conforms_of_untouched {present : Key → Prop} (huntouched : Untouched V s.toShared sid σ)
    (hpresent : ∀ key, present key → key ∈ s.committed)
    (hwp : (V.handler σ.call).wp C (.aware present) Q) : Conforms C Q s.toShared sid σ := by
  intro p hp
  obtain ⟨p', hp', hbegun⟩ := huntouched.prog
  rw [hp, some.injEq] at hp'
  subst hp'
  refine ⟨.aware present, ?_, hbegun.wp hwp⟩
  exact ⟨huntouched.readings, huntouched.writes, huntouched.saved,
    fun _ _ h => by simp [Local.aware, Local.fresh] at h, fun key _ => huntouched.locks key,
    fun key h => mem_visible_of_committed (hpresent key h),
    fun _ _ h => by simp [Local.aware, Local.fresh] at h⟩

variable [DecidableEq Index]

inductive StepCase (V : Server Row Index Req Resp Upstream Call α)
    (s t : Sys Row Index Req Resp Upstream Call α) : Action Key Call → Prop
  | start (sid : Nat) (call : Call) (hnew : s.sessions sid = none)
      (ht : t = s.setSession sid ⟨call, some (V.handler call), .idle⟩ s.toShared) :
      StepCase V s t (.start sid call)
  | run (sid : Nat) (choice : Choice Key) (call : Call) (o : Op Row Req)
      (next : o.Result Resp → Prog Row Req Resp α) (tx : Txn Row)
      (answer : o.Result Resp) (sh' : Shared Row Index Upstream) (tx' : Txn Row)
      (hsession : s.sessions sid = some ⟨call, some (.op o next), tx⟩)
      (hexec : o.exec V.schema sid choice s.toShared tx = some (answer, sh', tx'))
      (ht : t = s.setSession sid ⟨call, some (next answer), tx'⟩ sh') :
      StepCase V s t (.run sid choice)
  | crash (sid : Nat) (call : Call) (p : Prog Row Req Resp α) (tx : Txn Row)
      (hsession : s.sessions sid = some ⟨call, some p, tx⟩)
      (ht : t = s.setSession sid ⟨call, none, { tx with writes := ∅ }⟩
        (settle sid s.toShared s.committed)) :
      StepCase V s t (.crash sid)
  | tick (elapsed : Nat) (ht : t = { s with clock := s.clock + elapsed }) :
      StepCase V s t (.tick elapsed)

theorem step_cases (hstep : step V s a = some t) : StepCase V s t a := by
  cases a with
  | start sid call =>
    simp only [step] at hstep
    split at hstep
    · rename_i hnew
      exact .start sid call hnew (some.inj hstep).symm
    · simp at hstep
  | run sid choice =>
    simp only [step] at hstep
    split at hstep
    · rename_i call o next tx hsession
      obtain ⟨⟨answer, sh', tx'⟩, hexec, ht⟩ := map_eq_some_iff.mp hstep
      exact .run sid choice call o next tx answer sh' tx' hsession hexec ht.symm
    · simp at hstep
  | crash sid =>
    simp only [step] at hstep
    split at hstep
    · rename_i call o next tx hsession
      exact .crash sid call (.op o next) tx hsession (some.inj hstep).symm
    · simp at hstep
  | tick elapsed => exact .tick elapsed (some.inj hstep).symm

theorem commit_step {choice : Choice Key} {tx : Txn Row}
    {next : (Op.commit : Op Row Req).Result Resp → Prog Row Req Resp α}
    (hsession : s.sessions sid = some ⟨call, some (.op .commit next), tx⟩)
    (hstep : step V s (.run sid choice) = some t) : t.committed = tx.writes ∪ s.committed := by
  simp only [step, hsession, Op.exec, map_some, some.injEq] at hstep
  rw [← hstep]
  rfl

theorem call_step (hstep : step V s a = some t) (hσ : s.sessions sid = some σ) :
    ∃ σ', t.sessions sid = some σ' ∧ σ'.call = σ.call := by
  obtain ⟨other, call, hnew, rfl⟩ |
    ⟨other, choice, call, o, next, tx, answer, sh', tx', hsession, hexec, rfl⟩ |
    ⟨other, call, p, tx, hsession, rfl⟩ | ⟨elapsed, rfl⟩ := step_cases hstep
  · have hne : sid ≠ other := by
      rintro rfl
      rw [hnew] at hσ
      simp at hσ
    exact ⟨σ, by rw [setSession_of_ne hne, hσ], rfl⟩
  · exact call_setSession hσ (hsession ▸ rfl)
  · exact call_setSession hσ (hsession ▸ rfl)
  · exact ⟨σ, hσ, rfl⟩

theorem call_of_started {ok : Sys Row Index Req Resp Upstream Call α → Action Key Call → Prop}
    {history earlier : List (Event Row Index Req Resp Upstream Call α)}
    {u u' : Sys Row Index Req Resp Upstream Call α} (hrun : Run V ok s history t)
    (hstarted : ⟨u, .start sid call, u'⟩ :: earlier <:+ history) :
    ∃ σ, t.sessions sid = some σ ∧ σ.call = call := by
  induction hrun with
  | nil => simp at hstarted
  | cons _ _ hstep ih =>
    obtain heq | hrest := List.suffix_cons_iff.mp hstarted
    · obtain ⟨hevent, -⟩ := List.cons.inj heq
      obtain ⟨rfl, rfl, rfl⟩ := Event.mk.inj hevent
      cases step_cases hstep with
      | start _ _ _ ht => exact ⟨_, by rw [ht, setSession_self], rfl⟩
    · obtain ⟨σ, hσ, hcall⟩ := ih hrest
      obtain ⟨σ', hσ', hcall'⟩ := call_step hstep hσ
      exact ⟨σ', hσ', hcall'.trans hcall⟩

theorem Disciplined.step (hdisc : Disciplined s) (hstep : step V s a = some t) : Disciplined t := by
  obtain ⟨sid, call, hnew, rfl⟩ |
    ⟨sid, choice, call, o, next, tx, answer, sh', tx', hsession, hexec, rfl⟩ |
    ⟨sid, call, p, tx, hsession, rfl⟩ | ⟨elapsed, rfl⟩ := step_cases hstep
  · exact hdisc.setSession (locksWrites_empty _ _ _ rfl) (Framed.of_same rfl rfl)
  · obtain ⟨hown, hframe⟩ := exec_frame (hdisc.locksWrites sid _ hsession) hexec
    exact hdisc.setSession hown hframe
  · exact hdisc.setSession (locksWrites_empty _ _ _ rfl) (framed_abort)
  · exact ⟨hdisc.locksWrites, hdisc.unstarted⟩

theorem framed_step (hdisc : Disciplined s) (hstep : step V s a = some t)
    (hσ : t.sessions sid = some σ) :
    (∃ call, a = .start sid call) ∨ (∃ choice, a = .run sid choice) ∨ a = .crash sid ∨
      s.sessions sid = some σ ∧ ∃ other ≠ sid, Framed other s.toShared t.toShared := by
  obtain ⟨other, call, hnew, rfl⟩ |
    ⟨other, choice, call, o, next, tx, answer, sh', tx', hsession, hexec, rfl⟩ |
    ⟨other, call, p, tx, hsession, rfl⟩ | ⟨elapsed, rfl⟩ := step_cases hstep
  · by_cases heq : sid = other
    · exact Or.inl ⟨call, by rw [heq]⟩
    · rw [setSession_of_ne heq] at hσ
      exact Or.inr (Or.inr (Or.inr ⟨hσ, other, Ne.symm heq, Framed.of_same rfl rfl⟩))
  · by_cases heq : sid = other
    · exact Or.inr (Or.inl ⟨choice, by rw [heq]⟩)
    · rw [setSession_of_ne heq] at hσ
      have hframe := (exec_frame (hdisc.locksWrites other _ hsession) hexec).2
      exact Or.inr (Or.inr (Or.inr ⟨hσ, other, Ne.symm heq, hframe⟩))
  · by_cases heq : sid = other
    · exact Or.inr (Or.inr (Or.inl (by rw [heq])))
    · rw [setSession_of_ne heq] at hσ
      exact Or.inr (Or.inr (Or.inr ⟨hσ, other, Ne.symm heq, framed_abort⟩))
  · exact Or.inr (Or.inr (Or.inr ⟨hσ, sid + 1, by omega, Framed.of_same rfl rfl⟩))

/-- A step of the session itself, in a state whose committed rows are as it relies on. -/
theorem Conforms.exec {S : Schema Row Index Req Resp Upstream} {choice : Choice Key}
    {o : Op Row Req} {next : o.Result Resp → Prog Row Req Resp α} {tx tx' : Txn Row}
    {answer : o.Result Resp} (hconf : Conforms C Q sh sid ⟨call, some (.op o next), tx⟩)
    (hrely : ∀ key row, sh.committed.lookup key = some row → C.rely key row)
    (hexec : o.exec S sid choice sh tx = some (answer, sh', tx')) :
    Effect S C sid o sh tx sh' tx' ∧
      Conforms C Q sh' sid (⟨call, some (next answer), tx'⟩ : Session Row Req Resp Call α) := by
  obtain ⟨l, hm, hwp⟩ := hconf _ rfl
  obtain ⟨heffect, l', hm', hQ⟩ := exec_wp hm hrely hwp.2 hexec
  refine ⟨heffect, fun p hp => ⟨l', hm', ?_⟩⟩
  obtain rfl := some.inj hp
  exact hQ

/-- One session followed through a step of the system. Nothing is asked of the other sessions'
programs. -/
theorem conforms_step (hdisc : Disciplined s)
    (hrely : ∀ key row, s.committed.lookup key = some row → C.rely key row)
    (hstart : ∀ call, a = .start sid call → (V.handler call).wp C .fresh Q)
    (hconf : ∀ σ, s.sessions sid = some σ → Conforms C Q s.toShared sid σ)
    (hstep : step V s a = some t) (hσ : t.sessions sid = some σ) :
    Conforms C Q t.toShared sid σ := by
  obtain ⟨call, rfl⟩ | ⟨choice, rfl⟩ | rfl | ⟨hsame, other, hne, hframe⟩ :=
    framed_step hdisc hstep hσ
  · obtain ⟨_, _, hnew, rfl⟩ := step_cases hstep
    rw [setSession_self, some.injEq] at hσ
    subst hσ
    exact conforms_start (s := s) hdisc hnew (hstart call rfl)
  · obtain ⟨⟩ | ⟨_, _, call, o, next, tx, answer, sh', tx', hsession, hexec, rfl⟩ := step_cases hstep
    rw [setSession_self, some.injEq] at hσ
    subst hσ
    exact ((hconf _ hsession).exec hrely hexec).2
  · obtain ⟨⟩ | ⟨⟩ | ⟨_, call, p, tx, hsession, rfl⟩ := step_cases hstep
    rw [setSession_self, some.injEq] at hσ
    subst hσ
    intro p hp
    simp at hp
  · exact (hconf σ hsame).frame (Ne.symm hne) hframe

theorem silent_step (hdisc : Disciplined s)
    (hrely : ∀ key row, s.committed.lookup key = some row → C.rely key row)
    (hnever : ∀ rs access key old row, ¬ C.write rs access key old row)
    (hconf : ∀ σ, s.sessions sid = some σ → Conforms C Q s.toShared sid σ)
    (hsilent : ∀ σ, s.sessions sid = some σ → σ.txn.writes = ∅ ∧ σ.txn.saved = ∅)
    (hstep : step V s a = some t) (hσ : t.sessions sid = some σ) :
    σ.txn.writes = ∅ ∧ σ.txn.saved = ∅ := by
  obtain ⟨call, rfl⟩ | ⟨choice, rfl⟩ | rfl | ⟨hsame, -⟩ := framed_step hdisc hstep hσ
  · obtain ⟨_, _, hnew, rfl⟩ := step_cases hstep
    rw [setSession_self, some.injEq] at hσ
    subst hσ
    exact ⟨rfl, rfl⟩
  · obtain ⟨⟩ | ⟨_, _, call, o, next, tx, answer, sh', tx', hsession, hexec, rfl⟩ := step_cases hstep
    rw [setSession_self, some.injEq] at hσ
    subst hσ
    obtain ⟨hwrites, hsaved⟩ := hsilent _ hsession
    cases ((hconf _ hsession).exec hrely hexec).1 with
    | quiet _ _ hw hs => exact ⟨hw.trans hwrites, hs.trans hsaved⟩
    | placed _ _ _ _ _ hwrite => exact absurd hwrite (hnever _ _ _ _ _)
    | refused => exact ⟨hwrites, hsaved⟩
    | committed => exact ⟨rfl, hwrites⟩
    | aborted => exact ⟨rfl, hsaved⟩
  · obtain ⟨⟩ | ⟨⟩ | ⟨_, call, p, tx, hsession, rfl⟩ := step_cases hstep
    rw [setSession_self, some.injEq] at hσ
    subst hσ
    exact ⟨rfl, (hsilent _ hsession).2⟩
  · exact hsilent σ hsame

end ReadCommitted
