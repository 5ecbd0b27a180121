import Mathlib

/-!
# Processes over atomic operations

A process is a tree of operations on something shared, with a branch for each answer. A contract
says which answers it may count on and which operations it may perform; meeting it is a question
about the process alone.
-/

namespace Interleave

variable {Op : Type} {Result : Op → Type} {ε α β γ : Type}

inductive Proc (Op : Type) (Result : Op → Type) (α : Type) : Type where
  | ret (value : α)
  | op (o : Op) (next : Result o → Proc Op Result α)

namespace Proc

def bind : Proc Op Result α → (α → Proc Op Result β) → Proc Op Result β
  | .ret value, f => f value
  | .op o next, f => .op o fun answer => (next answer).bind f

instance : Monad (Proc Op Result) where
  pure := .ret
  bind := Proc.bind

def perform (o : Op) : Proc Op Result (Result o) := .op o .ret

end Proc

abbrev Task (Op : Type) (Result : Op → Type) (ε : Type) : Type → Type := ExceptT ε (Proc Op Result)

namespace Task

def ask (o : Op) : Task Op Result ε (Result o) := ExceptT.lift (Proc.perform o)

def require (value : Except ε α) : Task Op Result ε α := ExceptT.mk (pure value)

def ensure (condition : Prop) [Decidable condition] (e : ε) : Task Op Result ε Unit :=
  if condition then pure () else throw e

/-- What becomes of a task, be it an error. -/
def outcome (t : Task Op Result ε α) : Task Op Result ε (Except ε α) := ExceptT.lift t.run

end Task

/-- What a process may do and count on, as far as is known of its dealings so far. -/
structure Contract (Op : Type) (Result : Op → Type) (κ : Type) where
  may : κ → Op → Prop
  /-- The answers it may count on, and what is known after them. -/
  gets : κ → (o : Op) → Result o → κ → Prop

variable {κ : Type} {C : Contract Op Result κ} {k : κ}

namespace Proc

/-- As long as the answers are as the contract has them, so are the operations, and the result is as
promised. -/
def Meets (C : Contract Op Result κ) : Proc Op Result α → κ → (κ → α → Prop) → Prop
  | .ret value, k, Q => Q k value
  | .op o next, k, Q =>
    C.may k o ∧ ∀ answer k', C.gets k o answer k' → (next answer).Meets C k' Q

variable {Q : κ → α → Prop}

variable {p : Proc Op Result α}

theorem meets_mono {Q' : κ → α → Prop} (hQ : ∀ k a, Q k a → Q' k a) (hp : p.Meets C k Q) :
    p.Meets C k Q' := by
  induction p generalizing k with
  | ret value => exact hQ k value hp
  | op o next ih => exact ⟨hp.1, fun answer k' hanswer => ih answer (hp.2 answer k' hanswer)⟩

theorem meets_bind {f : α → Proc Op Result β} {Q : κ → β → Prop} :
    (p >>= f).Meets C k Q ↔ p.Meets C k fun k a => (f a).Meets C k Q := by
  induction p generalizing k with
  | ret value => exact Iff.rfl
  | op o next ih =>
    refine and_congr_right fun _ => forall_congr' fun answer => forall_congr' fun k' =>
      imp_congr_right fun _ => ?_
    exact ih answer

end Proc

namespace Task

variable {Q : κ → α → Prop} {E : κ → ε → Prop} {t : Task Op Result ε α} {a : α} {e : ε}
  {f : α → Task Op Result ε β}

def Meets (C : Contract Op Result κ) (t : Task Op Result ε α) (k : κ) (Q : κ → α → Prop)
    (E : κ → ε → Prop) : Prop :=
  Proc.Meets C t.run k fun k r =>
    match r with
    | .ok a => Q k a
    | .error e => E k e

theorem meets_run {R : κ → Except ε α → Prop} :
    t.run.Meets C k R ↔ Meets C t k (fun k a => R k (.ok a)) fun k e => R k (.error e) := by
  constructor <;> refine Proc.meets_mono fun k r hr => ?_ <;> cases r <;> exact hr

theorem meets_mono {Q' : κ → α → Prop} {E' : κ → ε → Prop} (hQ : ∀ k a, Q k a → Q' k a)
    (hE : ∀ k e, E k e → E' k e) (ht : Meets C t k Q E) : Meets C t k Q' E' := by
  refine Proc.meets_mono (fun k r hr => ?_) ht
  cases r with
  | ok a => exact hQ k a hr
  | error e => exact hE k e hr

@[simp]
theorem meets_pure : Meets C (pure a : Task Op Result ε α) k Q E ↔ Q k a := Iff.rfl

@[simp]
theorem meets_throw : Meets C (throw e : Task Op Result ε α) k Q E ↔ E k e := Iff.rfl

@[simp]
theorem meets_ask {o : Op} {Q : κ → Result o → Prop} :
    Meets C (ask o : Task Op Result ε _) k Q E ↔
      C.may k o ∧ ∀ answer k', C.gets k o answer k' → Q k' answer := Iff.rfl

@[simp]
theorem meets_bind {Q : κ → β → Prop} :
    Meets C (t >>= f) k Q E ↔ Meets C t k (fun k a => Meets C (f a) k Q E) E := by
  unfold Meets
  rw [ExceptT.run_bind, Proc.meets_bind]
  constructor <;> refine Proc.meets_mono fun k r hr => ?_ <;> cases r <;> exact hr

@[simp]
theorem meets_require {value : Except ε α} :
    Meets C (require value : Task Op Result ε α) k Q E ↔
      (∀ a, value = .ok a → Q k a) ∧ ∀ e, value = .error e → E k e := by
  cases value with
  | ok a =>
    change Q k a ↔ _
    simp
  | error e =>
    change E k e ↔ _
    simp

@[simp]
theorem meets_ensure {condition : Prop} [Decidable condition] {Q : κ → Unit → Prop} :
    Meets C (ensure condition e : Task Op Result ε Unit) k Q E ↔
      (condition → Q k ()) ∧ (¬ condition → E k e) := by
  unfold ensure
  split_ifs with hcond <;> simp [hcond]

@[simp]
theorem meets_outcome {Q : κ → Except ε α → Prop} :
    Meets C (outcome t) k Q E ↔ Meets C t k (fun k a => Q k (.ok a)) fun k e => Q k (.error e) := by
  unfold Meets
  rw [show (outcome t).run = t.run >>= fun r => .ret (.ok r) from rfl, Proc.meets_bind]
  constructor <;> refine Proc.meets_mono fun k r hr => ?_ <;> cases r <;> exact hr

theorem Meets.bind {Q : κ → β → Prop} (ht : Meets C t k (fun k a => Meets C (f a) k Q E) E) :
    Meets C (t >>= f) k Q E :=
  meets_bind.mpr ht

theorem Meets.pure (ha : Q k a) : Meets C (Pure.pure a : Task Op Result ε α) k Q E :=
  meets_pure.mpr ha

-- a task is taken apart by the rules above
attribute [irreducible] Meets

/-- A task that keeps an invariant up to where it returns, and throws what it may. -/
def Keeps (C : Contract Op Result κ) (I : κ → Prop) (E : κ → ε → Prop) (t : Task Op Result ε α) : Prop :=
  ∀ k, I k → Meets C t k (fun k _ => I k) E

section Keeps

variable {I : κ → Prop} {e : ε}

theorem Keeps.pure {a : α} : Keeps C I E (Pure.pure a : Task Op Result ε α) :=
  fun _ hk => meets_pure.mpr hk

theorem keeps_throw (he : ∀ k, I k → E k e) : Keeps C I E (throw e : Task Op Result ε α) :=
  fun k hk => meets_throw.mpr (he k hk)

theorem keeps_ask {o : Op} (hmay : ∀ k, I k → C.may k o)
    (hgets : ∀ k answer k', I k → C.gets k o answer k' → I k') :
    Keeps C I E (ask o : Task Op Result ε _) :=
  fun k hk => meets_ask.mpr ⟨hmay k hk, fun answer k' => hgets k answer k' hk⟩

theorem keeps_require {value : Except ε α} (hE : ∀ k e, I k → value = .error e → E k e) :
    Keeps C I E (require value : Task Op Result ε α) :=
  fun k hk => meets_require.mpr ⟨fun _ _ => hk, fun e he => hE k e hk he⟩

theorem keeps_ensure {condition : Prop} [Decidable condition] (hE : ∀ k, I k → ¬ condition → E k e) :
    Keeps C I E (ensure condition e : Task Op Result ε Unit) :=
  fun k hk => meets_ensure.mpr ⟨fun _ => hk, hE k hk⟩

variable {f : α → Task Op Result ε β}

theorem Keeps.meets_bind {Q : κ → β → Prop} (ht : Keeps C I E t) (hk : I k)
    (hf : ∀ a k, I k → Meets C (f a) k Q E) : Meets C (t >>= f) k Q E :=
  Task.meets_bind.mpr (meets_mono (fun k a hk => hf a k hk) (fun _ _ he => he) (ht k hk))

theorem Keeps.bind (ht : Keeps C I E t) (hf : ∀ a, Keeps C I E (f a)) : Keeps C I E (t >>= f) :=
  fun _ hk => ht.meets_bind hk fun a k hk => hf a k hk

theorem Keeps.ite {c : Prop} [Decidable c] {t u : Task Op Result ε α} (ht : c → Keeps C I E t)
    (hu : ¬ c → Keeps C I E u) : Keeps C I E (if c then t else u) := by
  split_ifs with hc
  · exact ht hc
  · exact hu hc

theorem Keeps.when {c : Prop} [Decidable c] {rest : Task Op Result ε β} (ht : c → Keeps C I E t)
    (hrest : Keeps C I E rest) : Keeps C I E (if c then (t >>= fun _ => rest) else rest) :=
  .ite (fun hc => (ht hc).bind fun _ => hrest) fun _ => hrest

theorem Keeps.outcome_bind {T : ε → Prop} {f : Except ε α → Task Op Result ε β}
    (ht : Keeps C I (fun k e => I k ∧ T e) t) (hok : ∀ a, Keeps C I E (f (.ok a)))
    (herror : ∀ e, T e → Keeps C I E (f (.error e))) : Keeps C I E (Task.outcome t >>= f) := by
  intro k hk
  refine Task.meets_bind.mpr (meets_outcome.mpr (meets_mono (fun k a hk => hok a k hk) ?_ (ht k hk)))
  rintro k e ⟨hk, he⟩
  exact herror e he k hk

theorem Keeps.mono {E' : κ → ε → Prop} (hE : ∀ k e, E k e → E' k e) (ht : Keeps C I E t) :
    Keeps C I E' t :=
  fun k hk => meets_mono (fun _ _ hk => hk) hE (ht k hk)

end Keeps

end Task

end Interleave
