import ControlPlane.Interleave.Trace

/-!
# A process alone on its world

A script performs its operations one after the other, each answered as the world chooses, and can be
killed between any two. A contract that counts them says where it is after each.
-/

namespace Interleave

open List

variable {Op : Type} {Result : Op → Type} {World Choice ε α β : Type}
  {exec : World → Choice → (o : Op) → Result o × World}

/-- After `n` operations the process that was started has become `rest`, on the world behind it. -/
inductive Proc.Reached (exec : World → Choice → (o : Op) → Result o × World) :
    World → Proc Op Result α → Nat → World → Proc Op Result α → Prop
  | here {w : World} {p : Proc Op Result α} : Reached exec w p 0 w p
  | op {w v : World} {o : Op} {next : Result o → Proc Op Result α} {n : Nat}
      {rest : Proc Op Result α} (choice : Choice)
      (hrest : Reached exec (exec w choice o).2 (next (exec w choice o).1) n v rest) :
      Reached exec w (.op o next) (n + 1) v rest

/-- A process that is not killed comes to its end with an answer. -/
def Proc.Completes (exec : World → Choice → (o : Op) → Result o × World) (w : World)
    (p : Proc Op Result α) (v : World) (answer : α) : Prop :=
  ∃ n, Reached exec w p n v (.ret answer)

/-- The operations with their answers that have brought the process to `rest` on the world behind it. -/
inductive Proc.Course (exec : World → Choice → (o : Op) → Result o × World) :
    World → Proc Op Result α → Trace Op Result → World → Proc Op Result α → Prop
  | here {w : World} {p : Proc Op Result α} : Course exec w p [] w p
  | op {w v : World} {o : Op} {next : Result o → Proc Op Result α} {trace : Trace Op Result}
      {rest : Proc Op Result α} (choice : Choice)
      (hrest : Course exec (exec w choice o).2 (next (exec w choice o).1) trace v rest) :
      Course exec w (.op o next) (⟨o, (exec w choice o).1⟩ :: trace) v rest

/-- The operations of a process that may stand at the worlds `K` after so many operations. -/
def counting (exec : World → Choice → (o : Op) → Result o × World) (K : Nat → World → Prop) :
    Contract Op Result (Nat × World) where
  may k _ := K k.1 k.2
  gets k o answer k' := ∃ choice, k' = (k.1 + 1, (exec k.2 choice o).2) ∧ answer = (exec k.2 choice o).1

/-- The operations of a process that may follow those before them, where all answers are fine. -/
def recording (exec : World → Choice → (o : Op) → Result o × World) (may : Trace Op Result → Op → Prop)
    (fine : (o : Op) → Result o → Prop) : Contract Op Result (World × Trace Op Result) where
  may k o := may k.2 o
  gets k o answer k' := fine o answer ∧ ∃ choice, answer = (exec k.1 choice o).1 ∧
    k' = ((exec k.1 choice o).2, k.2 ++ [⟨o, answer⟩])

variable {K : Nat → World → Prop} {n m : Nat} {w v : World}

namespace Proc

variable {p rest : Proc Op Result α} {Q : Nat × World → α → Prop}

theorem Reached.meets (hreached : Reached exec w p n v rest) :
    ∀ {m : Nat}, p.Meets (counting exec K) (m, w) Q → rest.Meets (counting exec K) (m + n, v) Q := by
  induction hreached with
  | here => exact fun hp => hp
  | @op w v o next n rest choice _ ih =>
    intro m hp
    have hnext := ih (hp.2 (exec w choice o).1 _ ⟨choice, rfl, rfl⟩)
    rwa [Nat.add_right_comm m 1 n] at hnext

variable {trace : Trace Op Result}

theorem Course.meets {may : Trace Op Result → Op → Prop} {fine : (o : Op) → Result o → Prop}
    {Q : World × Trace Op Result → α → Prop} (hcourse : Course exec w p trace v rest)
    (hfine : ∀ step ∈ trace, fine step.1 step.2) :
    ∀ {past : Trace Op Result}, p.Meets (recording exec may fine) (w, past) Q →
      rest.Meets (recording exec may fine) (v, past ++ trace) Q ∧
        ∀ before step after, trace = before ++ step :: after → may (past ++ before) step.1 := by
  induction hcourse with
  | here =>
    intro past hp
    rw [append_nil]
    exact ⟨hp, fun before step after h => absurd h (by simp)⟩
  | @op w v o next trace rest choice _ ih =>
    intro past hp
    obtain ⟨hhead, htail⟩ := forall_mem_cons.mp hfine
    obtain ⟨hrest, hmay⟩ := ih htail (hp.2 _ _ ⟨hhead, choice, rfl, rfl⟩)
    rw [append_assoc] at hrest
    refine ⟨hrest, fun before step after h => ?_⟩
    cases before with
    | nil =>
      obtain ⟨rfl, rfl⟩ := cons.inj h
      rw [append_nil]
      exact hp.1
    | cons first before =>
      obtain ⟨rfl, htrace⟩ := cons.inj h
      have hstep := hmay before step after htrace
      rwa [append_assoc] at hstep

variable {f : α → Proc Op Result β}

theorem Course.bind {a : α} {u : World} {trace' : Trace Op Result} {rest : Proc Op Result β}
    (hp : Course exec w p trace v (.ret a)) (hf : Course exec v (f a) trace' u rest) :
    Course exec w (p >>= f) (trace ++ trace') u rest := by
  generalize hret : Proc.ret a = q at hp
  induction hp with
  | here =>
    rw [← hret]
    exact hf
  | op choice _ ih => exact .op choice (ih hf hret)

def finish (exec : World → Choice → (o : Op) → Result o × World) (choice : Choice) :
    Proc Op Result α → World → World × α
  | .ret answer, w => (w, answer)
  | .op o next, w => (next (exec w choice o).1).finish exec choice (exec w choice o).2

theorem completes_finish (choice : Choice) :
    p.Completes exec w (p.finish exec choice w).1 (p.finish exec choice w).2 := by
  induction p generalizing w with
  | ret answer => exact ⟨0, .here⟩
  | op o next ih =>
    have hnext : (next (exec w choice o).1).Completes exec (exec w choice o).2 _ _ := ih _
    exact hnext.elim fun n hreached => ⟨n + 1, .op choice hreached⟩

theorem course_finish (choice : Choice) : ∃ trace : Trace Op Result,
    Course exec w p trace (p.finish exec choice w).1 (.ret (p.finish exec choice w).2) ∧
      ∀ step ∈ trace, ∃ w, step.2 = (exec w choice step.1).1 := by
  induction p generalizing w with
  | ret answer => exact ⟨[], .here, by simp⟩
  | op o next ih =>
    obtain ⟨trace, hcourse, hchoice⟩ := ih (exec w choice o).1 (w := (exec w choice o).2)
    refine ⟨⟨o, (exec w choice o).1⟩ :: trace, .op choice hcourse, ?_⟩
    exact forall_mem_cons.mpr ⟨⟨w, rfl⟩, hchoice⟩

theorem finish_bind (choice : Choice) :
    (p >>= f).finish exec choice w =
      (f (p.finish exec choice w).2).finish exec choice (p.finish exec choice w).1 := by
  induction p generalizing w with
  | ret answer => rfl
  | op o next ih => exact ih _

end Proc

namespace Task

variable {t : Task Op Result ε α} {Q : Nat × World → α → Prop} {E : Nat × World → ε → Prop} {o : Op}
  {e : ε} {value : Except ε α} {a : α}

@[simp]
theorem meets_ask_counting {Q : Nat × World → Result o → Prop} :
    Meets (counting exec K) (ask o : Task Op Result ε _) (n, w) Q E ↔
      K n w ∧ ∀ choice, Q (n + 1, (exec w choice o).2) (exec w choice o).1 := by
  rw [meets_ask]
  refine and_congr_right fun _ => ?_
  constructor
  · exact fun h choice => h _ _ ⟨choice, rfl, rfl⟩
  · rintro h answer k' ⟨choice, rfl, rfl⟩
    exact h choice

theorem Meets.ask_bind {f : Result o → Task Op Result ε α} (hK : K n w)
    (hf : ∀ choice, Meets (counting exec K) (f (exec w choice o).1) (n + 1, (exec w choice o).2) Q E) :
    Meets (counting exec K) (ask o >>= f) (n, w) Q E :=
  .bind (meets_ask_counting.mpr ⟨hK, hf⟩)

theorem course_ask {answer : Result o} (choice : Choice) (hexec : exec w choice o = (answer, v)) :
    Proc.Course exec w (ask o : Task Op Result ε _).run [⟨o, answer⟩] v (.ret (.ok answer)) := by
  have hanswer : (exec w choice o).1 = answer := by rw [hexec]
  have hworld : (exec w choice o).2 = v := by rw [hexec]
  rw [← hanswer, ← hworld]
  exact .op choice .here

theorem course_ensure {condition : Prop} [Decidable condition] (hcondition : condition) :
    Proc.Course exec w (ensure condition e : Task Op Result ε Unit).run [] w (.ret (.ok ())) := by
  unfold ensure
  rw [if_pos hcondition]
  exact .here

theorem course_require (hvalue : value = .ok a) :
    Proc.Course exec w (require value : Task Op Result ε α).run [] w (.ret (.ok a)) := by
  rw [hvalue]
  exact .here

variable {f : α → Task Op Result ε β} {trace : Trace Op Result} {rest : Proc Op Result (Except ε β)}

theorem course_bind {u : World} {trace' : Trace Op Result}
    (ht : Proc.Course exec w t.run trace v (.ret (.ok a)))
    (hf : Proc.Course exec v (f a).run trace' u rest) :
    Proc.Course exec w (t >>= f).run (trace ++ trace') u rest := by
  exact ht.bind hf

theorem course_bind_here (ht : Proc.Course exec w t.run trace v (.ret (.ok a))) :
    Proc.Course exec w (t >>= f).run trace v (f a).run := by
  have hboth : Proc.Course exec w (t >>= f).run (trace ++ []) v (f a).run := course_bind ht .here
  rwa [append_nil] at hboth

theorem course_require_bind (hvalue : value = .ok a)
    (hf : Proc.Course exec w (f a).run trace v rest) :
    Proc.Course exec w (require value >>= f).run trace v rest :=
  course_bind (course_require hvalue) hf

theorem course_bind_of_error (ht : Proc.Course exec w t.run trace v (.ret (.error e))) :
    Proc.Course exec w (t >>= f).run trace v (.ret (.error e)) := by
  have hboth : Proc.Course exec w (t.run >>= ExceptT.bindCont f) (trace ++ []) v (.ret (.error e)) :=
    ht.bind .here
  rwa [append_nil] at hboth

def finish (exec : World → Choice → (o : Op) → Result o × World) (choice : Choice)
    (t : Task Op Result ε α) (w : World) : World × Except ε α := t.run.finish exec choice w

section Finish

variable {choice : Choice} {a : α}

@[simp]
theorem finish_pure : finish exec choice (pure a : Task Op Result ε α) w = (w, .ok a) := rfl

@[simp]
theorem finish_ask {o : Op} :
    finish exec choice (ask o : Task Op Result ε _) w =
      ((exec w choice o).2, .ok (exec w choice o).1) := rfl

theorem finish_bind_of_ok {f : α → Task Op Result ε β} (ht : finish exec choice t w = (v, .ok a)) :
    finish exec choice (t >>= f) w = finish exec choice (f a) v := by
  unfold finish at ht ⊢
  rw [ExceptT.run_bind, Proc.finish_bind, ht]

theorem completes_of_finish {r : Except ε α} (ht : finish exec choice t w = (v, r)) :
    Proc.Completes exec w t.run v r := by
  obtain ⟨rfl, rfl⟩ := Prod.mk.inj ht
  exact Proc.completes_finish choice

end Finish

/-- What holds at the end of a task, as one predicate on its result. -/
def atEnd (Q : Nat × World → α → Prop) (E : Nat × World → ε → Prop) (k : Nat × World) :
    Except ε α → Prop
  | .ok a => Q k a
  | .error e => E k e

theorem reached_cases {rest : Proc Op Result (Except ε α)}
    (ht : Meets (counting exec K) t (0, w) Q E) (hreached : Proc.Reached exec w t.run n v rest) :
    K n v ∨ (∃ a, rest = .ret (.ok a) ∧ Q (n, v) a) ∨ ∃ e, rest = .ret (.error e) ∧ E (n, v) e := by
  have hrest := hreached.meets ((meets_run (R := atEnd Q E)).mpr ht)
  rw [Nat.zero_add] at hrest
  cases rest with
  | op o next => exact .inl hrest.1
  | ret r =>
    cases r with
    | ok a => exact .inr (.inl ⟨a, rfl, hrest⟩)
    | error e => exact .inr (.inr ⟨e, rfl, hrest⟩)

theorem completes_cases {r : Except ε α}
    (ht : Meets (counting exec K) t (0, w) Q E)
    (hcompletes : Proc.Completes exec w t.run v r) : ∃ n, atEnd Q E (n, v) r := by
  obtain ⟨n, hreached⟩ := hcompletes
  have hrest := hreached.meets ((meets_run (R := atEnd Q E)).mpr ht)
  rw [Nat.zero_add] at hrest
  exact ⟨n, hrest⟩

@[elab_as_elim]
theorem of_completes {r : Except ε α} {P : World → Except ε α → Prop}
    (hcompletes : Proc.Completes exec w t.run v r)
    (ht : Meets (counting exec fun _ _ => True) t (0, w) (fun k a => P k.2 (.ok a))
      fun k e => P k.2 (.error e)) : P v r := by
  obtain ⟨n, hend⟩ := completes_cases ht hcompletes
  cases r <;> exact hend

end Task

end Interleave
