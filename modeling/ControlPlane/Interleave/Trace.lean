import ControlPlane.Interleave.Process

/-!
# Processes against given answers

If it is fixed beforehand what every operation will be answered, a process has one course and one
result.
-/

namespace Interleave

variable {Op : Type} {Result : Op → Type} {ε α β : Type}

abbrev Trace (Op : Type) (Result : Op → Type) : Type := List ((o : Op) × Result o)

abbrev Answers (Op : Type) (Result : Op → Type) : Type := Nat → (o : Op) → Result o

variable {answers : Answers Op Result} {n : Nat}

namespace Proc

def against (answers : Answers Op Result) : Nat → Proc Op Result α → Trace Op Result × α
  | _, .ret value => ([], value)
  | n, .op o next =>
    let rest := (next (answers n o)).against answers (n + 1)
    (⟨o, answers n o⟩ :: rest.1, rest.2)

theorem against_bind {p : Proc Op Result α} {f : α → Proc Op Result β} :
    (p >>= f).against answers n =
      let first := p.against answers n
      let second := (f first.2).against answers (n + first.1.length)
      (first.1 ++ second.1, second.2) := by
  induction p generalizing n with
  | ret value => rfl
  | op o next ih =>
    have hnext := ih (answers n o) (n := n + 1)
    change (⟨o, answers n o⟩ :: ((next (answers n o) >>= f).against answers (n + 1)).1,
      ((next (answers n o) >>= f).against answers (n + 1)).2) = _
    rw [hnext]
    simp only [against, List.length_cons, List.cons_append]
    rw [Nat.add_assoc n 1, Nat.add_comm 1]

end Proc

namespace Task

variable {t : Task Op Result ε α} {a : α} {e : ε} {f : α → Task Op Result ε β}
  {first : Trace Op Result}

def against (answers : Answers Op Result) (n : Nat) (t : Task Op Result ε α) :
    Trace Op Result × Except ε α := t.run.against answers n

@[simp]
theorem against_pure : against answers n (pure a : Task Op Result ε α) = ([], .ok a) := rfl

@[simp]
theorem against_throw : against answers n (throw e : Task Op Result ε α) = ([], .error e) := rfl

@[simp]
theorem against_ask {o : Op} :
    against answers n (ask o : Task Op Result ε _) = ([⟨o, answers n o⟩], .ok (answers n o)) := rfl

@[simp]
theorem against_require {value : Except ε α} :
    against answers n (require value : Task Op Result ε α) = ([], value) := rfl

@[simp]
theorem against_outcome :
    against answers n (outcome t) = ((against answers n t).1, .ok (against answers n t).2) := by
  unfold against
  rw [show (outcome t).run = t.run >>= fun r => .ret (.ok r) from rfl, Proc.against_bind]
  simp [Proc.against]

theorem against_bind :
    against answers n (t >>= f) =
      match against answers n t with
      | (first, .ok a) =>
        let second := against answers (n + first.length) (f a)
        (first ++ second.1, second.2)
      | (first, .error e) => (first, .error e) := by
  unfold against
  rw [ExceptT.run_bind, Proc.against_bind]
  rcases t.run.against answers n with ⟨first, _ | a⟩
  · simp [Proc.against, pure]
  · rfl

theorem against_bind_of_ok (ht : against answers n t = (first, .ok a)) :
    against answers n (t >>= f) =
      (first ++ (against answers (n + first.length) (f a)).1,
        (against answers (n + first.length) (f a)).2) := by
  rw [against_bind, ht]

theorem against_bind_of_error (ht : against answers n t = (first, .error e)) :
    against answers n (t >>= f) = (first, .error e) := by
  rw [against_bind, ht]

/-- Whatever it is answered, a task performs operations of one kind only. -/
def Performs (P : Op → Prop) (t : Task Op Result ε α) : Prop :=
  Meets ⟨fun _ o => P o, fun _ _ _ _ => True⟩ t () (fun _ _ => True) fun _ _ => True

section Performs

variable {P : Op → Prop} {e : ε}

@[simp]
theorem performs_pure {a : α} : Performs P (pure a : Task Op Result ε α) := by simp [Performs]

@[simp]
theorem performs_throw : Performs P (throw e : Task Op Result ε α) := by simp [Performs]

@[simp]
theorem performs_require {value : Except ε α} : Performs P (require value : Task Op Result ε α) := by
  simp [Performs]

@[simp]
theorem performs_ensure {condition : Prop} [Decidable condition] :
    Performs P (ensure condition e : Task Op Result ε Unit) := by
  simp [Performs]

theorem performs_ask {o : Op} (ho : P o) : Performs P (ask o : Task Op Result ε _) := by
  simp [Performs, ho]

theorem Performs.bind {f : α → Task Op Result ε β} (ht : Performs P t)
    (hf : ∀ a, Performs P (f a)) : Performs P (t >>= f) := by
  unfold Performs
  rw [meets_bind]
  exact meets_mono (fun _ a _ => hf a) (fun _ _ h => h) ht

theorem Performs.of_mem_against (ht : Performs P t) : ∀ step ∈ (against answers n t).1, P step.1 := by
  have hproc : ∀ {p : Proc Op Result (Except ε α)} {Q : Unit → Except ε α → Prop} {n : Nat},
      p.Meets ⟨fun _ o => P o, fun _ _ _ _ => True⟩ () Q → ∀ step ∈ (p.against answers n).1, P step.1 := by
    intro p
    induction p with
    | ret value => simp [Proc.against]
    | op o next ih =>
      intro Q n hp
      exact List.forall_mem_cons.mpr ⟨hp.1, ih (answers n o) (hp.2 _ () trivial)⟩
  have hrun : t.run.Meets ⟨fun _ o => P o, fun _ _ _ _ => True⟩ () fun _ _ => True := meets_run.mpr ht
  exact hproc hrun

end Performs

end Task

end Interleave
