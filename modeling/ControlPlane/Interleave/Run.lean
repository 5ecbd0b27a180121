import ControlPlane.Interleave.Process

/-!
# Runs of interleaved processes

Processes take turns operation by operation, can be dropped at any point, and the environment acts
in between. Processes that meet their contracts keep an invariant of the run if every permitted
operation keeps it and answers as promised.
-/

namespace Interleave

open Function Option

variable {Op : Type} {Result : Op → Type} {State Choice Env Call α κ : Type}

structure Machine (Op : Type) (Result : Op → Type) (State Choice Env Call α : Type) where
  /-- What an operation answers and does, as the environment chooses; not all choices are possible. -/
  exec : State → Choice → (o : Op) → Option (Result o × State)
  env : State → Env → State
  process : Call → Proc Op Result α

/-- A call that is being served. The process is gone once the call has been dropped. -/
structure Session (Op : Type) (Result : Op → Type) (Call α : Type) where
  call : Call
  proc : Option (Proc Op Result α)

structure Sys (Op : Type) (Result : Op → Type) (State Call α : Type) where
  state : State
  sessions : Nat → Option (Session Op Result Call α)

inductive Action (Choice Env Call : Type) where
  | start (sid : Nat) (call : Call)
  | run (sid : Nat) (choice : Choice)
  | drop (sid : Nat)
  | env (e : Env)

structure Event (Op : Type) (Result : Op → Type) (State Choice Env Call α : Type) where
  before : Sys Op Result State Call α
  action : Action Choice Env Call
  after : Sys Op Result State Call α

namespace Sys

variable (s : Sys Op Result State Call α) {sid : Nat} {session : Session Op Result Call α}
  {state : State}

def doing (sid : Nat) : Option Op :=
  match s.sessions sid with
  | some ⟨_, some (.op o _)⟩ => some o
  | _ => none

def setSession (sid : Nat) (session : Session Op Result Call α) (state : State) :
    Sys Op Result State Call α where
  state := state
  sessions := update s.sessions sid (some session)

@[simp]
theorem setSession_self :
    (s.setSession sid session state).sessions sid = some session := update_self ..

theorem setSession_of_ne {other : Nat} (hne : other ≠ sid) :
    (s.setSession sid session state).sessions other = s.sessions other :=
  update_of_ne hne ..

def returned (sid : Nat) : Option α :=
  match s.sessions sid with
  | some ⟨_, some (.ret answer)⟩ => some answer
  | _ => none

variable {s}

theorem returned_eq_some {answer : α} :
    s.returned sid = some answer ↔ ∃ call, s.sessions sid = some ⟨call, some (.ret answer)⟩ := by
  unfold returned
  split
  · rename_i call found heq
    simp [heq]
  · rename_i hnone
    constructor
    · intro h
      cases h
    · rintro ⟨call, heq⟩
      exact absurd heq (hnone call answer)

end Sys

def Event.does (e : Event Op Result State Choice Env Call α) : Option (Nat × Op) :=
  match e.action with
  | .run sid _ => (e.before.doing sid).map fun o => (sid, o)
  | _ => none

variable {s t : Sys Op Result State Call α} {sid : Nat} {call : Call}

theorem Event.does_run {choice : Choice} {o : Op} {next : Result o → Proc Op Result α}
    (hsession : s.sessions sid = some ⟨call, some (.op o next)⟩) :
    (⟨s, .run sid choice, t⟩ : Event Op Result State Choice Env Call α).does = some (sid, o) := by
  simp [Event.does, Sys.doing, hsession]

variable (M : Machine Op Result State Choice Env Call α) {actions : List (Action Choice Env Call)}

def step (s : Sys Op Result State Call α) :
    Action Choice Env Call → Option (Sys Op Result State Call α)
  | .start sid call =>
    match s.sessions sid with
    | none => some (s.setSession sid ⟨call, some (M.process call)⟩ s.state)
    | some _ => none
  | .run sid choice =>
    match s.sessions sid with
    | some ⟨call, some (.op o next)⟩ =>
      (M.exec s.state choice o).map fun (answer, state) =>
        s.setSession sid ⟨call, some (next answer)⟩ state
    | _ => none
  | .drop sid =>
    match s.sessions sid with
    | some ⟨call, some _⟩ => some (s.setSession sid ⟨call, none⟩ s.state)
    | _ => none
  | .env e => some { s with state := M.env s.state e }

inductive StepCases (s t : Sys Op Result State Call α) : Action Choice Env Call → Prop
  | start (sid : Nat) (call : Call) (hnew : s.sessions sid = none)
      (ht : t = s.setSession sid ⟨call, some (M.process call)⟩ s.state) : StepCases s t (.start sid call)
  | run (sid : Nat) (choice : Choice) (call : Call) (o : Op) (next : Result o → Proc Op Result α)
      (answer : Result o) (state : State) (hsession : s.sessions sid = some ⟨call, some (.op o next)⟩)
      (hexec : M.exec s.state choice o = some (answer, state))
      (ht : t = s.setSession sid ⟨call, some (next answer)⟩ state) : StepCases s t (.run sid choice)
  | drop (sid : Nat) (call : Call) (p : Proc Op Result α) (hsession : s.sessions sid = some ⟨call, some p⟩)
      (ht : t = s.setSession sid ⟨call, none⟩ s.state) : StepCases s t (.drop sid)
  | env (e : Env) (ht : t = { s with state := M.env s.state e }) : StepCases s t (.env e)

variable {M}

theorem step_cases {a : Action Choice Env Call} (hstep : step M s a = some t) :
    StepCases M s t a := by
  cases a with
  | start sid call =>
    simp only [step] at hstep
    split at hstep
    · rename_i hnew
      exact .start sid call hnew (some.inj hstep).symm
    · cases hstep
  | run sid choice =>
    simp only [step] at hstep
    split at hstep
    · rename_i call o next hsession
      obtain ⟨⟨answer, state⟩, hexec, ht⟩ := map_eq_some_iff.mp hstep
      exact .run sid choice call o next answer state hsession hexec ht.symm
    · cases hstep
  | drop sid =>
    simp only [step] at hstep
    split at hstep
    · rename_i call p hsession
      exact .drop sid call p hsession (some.inj hstep).symm
    · cases hstep
  | env e => exact .env e (some.inj hstep).symm

variable (M)

/-- What was done in a run, latest first; every step is permitted after what was done before it. -/
inductive Run
    (ok : List (Event Op Result State Choice Env Call α) → Sys Op Result State Call α →
      Action Choice Env Call → Prop) (s : Sys Op Result State Call α) :
    List (Event Op Result State Choice Env Call α) → Sys Op Result State Call α → Prop
  | nil : Run ok s [] s
  | cons {history : List (Event Op Result State Choice Env Call α)} {t u : Sys Op Result State Call α}
      {a : Action Choice Env Call} (hrun : Run ok s history t) (hok : ok history t a)
      (hstep : step M t a = some u) : Run ok s (⟨t, a, u⟩ :: history) u

def record (history : List (Event Op Result State Choice Env Call α)) (s : Sys Op Result State Call α) :
    List (Action Choice Env Call) →
      Option (List (Event Op Result State Choice Env Call α) × Sys Op Result State Call α)
  | [] => some (history, s)
  | a :: rest => (step M s a).bind fun t => record (⟨s, a, t⟩ :: history) t rest

variable {M}

theorem suffix_of_record :
    ∀ {history history' : List (Event Op Result State Choice Env Call α)}
      {s t : Sys Op Result State Call α},
      record M history s actions = some (history', t) → history <:+ history' := by
  induction actions with
  | nil =>
    intro history history' s t hrecord
    obtain ⟨rfl, -⟩ : history = history' ∧ s = t := by simpa [record] using hrecord
    exact List.suffix_rfl
  | cons a rest ih =>
    intro history history' s t hrecord
    obtain ⟨u, -, hrest⟩ := bind_eq_some_iff.mp hrecord
    exact (List.suffix_cons _ _).trans (ih hrest)

def Permitted (ok : List (Event Op Result State Choice Env Call α) → Sys Op Result State Call α →
      Action Choice Env Call → Prop) : List (Event Op Result State Choice Env Call α) → Prop
  | [] => True
  | e :: earlier => ok earlier e.before e.action ∧ Permitted ok earlier

instance {ok : List (Event Op Result State Choice Env Call α) → Sys Op Result State Call α →
    Action Choice Env Call → Prop} [hdec : ∀ history s a, Decidable (ok history s a)] :
    ∀ history : List (Event Op Result State Choice Env Call α), Decidable (Permitted ok history)
  | [] => .isTrue trivial
  | e :: earlier =>
    match hdec earlier e.before e.action, instDecidablePermitted earlier with
    | .isTrue hok, .isTrue hearlier => .isTrue ⟨hok, hearlier⟩
    | .isFalse hnot, _ => .isFalse fun h => hnot h.1
    | _, .isFalse hnot => .isFalse fun h => hnot h.2

variable
  {ok : List (Event Op Result State Choice Env Call α) → Sys Op Result State Call α →
    Action Choice Env Call → Prop} {C : Contract Op Result κ} {promise : Call → κ → α → Prop}

theorem permitted_of_forall (hok : ∀ history s a, ok history s a) :
    ∀ history : List (Event Op Result State Choice Env Call α), Permitted ok history
  | [] => trivial
  | e :: earlier => ⟨hok earlier e.before e.action, permitted_of_forall hok earlier⟩

theorem Permitted.of_suffix {later earlier : List (Event Op Result State Choice Env Call α)}
    (hlater : Permitted ok later) (hsuffix : earlier <:+ later) : Permitted ok earlier := by
  induction later with
  | nil => rwa [List.suffix_nil.mp hsuffix]
  | cons e rest ih =>
    rcases List.suffix_cons_iff.mp hsuffix with rfl | hrest
    · exact hlater
    · exact ih hlater.2 hrest

theorem run_of_record :
    ∀ {history history' : List (Event Op Result State Choice Env Call α)}
      {t u : Sys Op Result State Call α}, Run M ok s history t →
      record M history t actions = some (history', u) → Permitted ok history' →
      Run M ok s history' u := by
  induction actions with
  | nil =>
    intro history history' t u hrun hrecord _
    obtain ⟨rfl, rfl⟩ : history = history' ∧ t = u := by simpa [record] using hrecord
    exact hrun
  | cons a rest ih =>
    intro history history' t u hrun hrecord hpermitted
    obtain ⟨v, hstep, hrest⟩ := bind_eq_some_iff.mp hrecord
    have hok := (hpermitted.of_suffix (suffix_of_record hrest)).1
    exact ih (.cons hrun hok hstep) hrest hpermitted

/-- An invariant of the run and of what is known of each session since its start. -/
structure Keeps (M : Machine Op Result State Choice Env Call α)
    (ok : List (Event Op Result State Choice Env Call α) → Sys Op Result State Call α →
      Action Choice Env Call → Prop)
    (first : List (Event Op Result State Choice Env Call α) → Call → κ) (C : Contract Op Result κ)
    (I : List (Event Op Result State Choice Env Call α) → Sys Op Result State Call α → (Nat → κ) → Prop) :
    Prop where
  start : ∀ history s γ sid call t, I history s γ → ok history s (.start sid call) →
    s.sessions sid = none → t = s.setSession sid ⟨call, some (M.process call)⟩ s.state →
    I (⟨s, .start sid call, t⟩ :: history) t (update γ sid (first history call))
  run : ∀ history s γ sid choice call o next answer state t, I history s γ →
    ok history s (.run sid choice) → s.sessions sid = some ⟨call, some (.op o next)⟩ →
    C.may (γ sid) o → M.exec s.state choice o = some (answer, state) →
    t = s.setSession sid ⟨call, some (next answer)⟩ state →
    ∃ k, C.gets (γ sid) o answer k ∧
      I (⟨s, .run sid choice, t⟩ :: history) t (update γ sid k)
  drop : ∀ history s γ sid call p t, I history s γ → ok history s (.drop sid) →
    s.sessions sid = some ⟨call, some p⟩ → t = s.setSession sid ⟨call, none⟩ s.state →
    I (⟨s, .drop sid, t⟩ :: history) t γ
  env : ∀ history s γ e t, I history s γ → ok history s (.env e) →
    t = { s with state := M.env s.state e } → I (⟨s, .env e, t⟩ :: history) t γ

def Meeting (C : Contract Op Result κ) (promise : Call → κ → α → Prop)
    (s : Sys Op Result State Call α) (γ : Nat → κ) : Prop :=
  ∀ sid call p, s.sessions sid = some ⟨call, some p⟩ → p.Meets C (γ sid) (promise call)

theorem Meeting.setSession {γ : Nat → κ} {proc : Option (Proc Op Result α)} {state : State} {k : κ}
    (hmeeting : Meeting C promise s γ) (hself : ∀ p, proc = some p → p.Meets C k (promise call)) :
    Meeting C promise (s.setSession sid ⟨call, proc⟩ state) (update γ sid k) := by
  intro other call' p hsession
  by_cases heq : other = sid
  · subst heq
    obtain ⟨rfl, hproc⟩ : call = call' ∧ proc = some p := by simpa using hsession
    rw [update_self]
    exact hself p hproc
  · rw [Sys.setSession_of_ne s heq] at hsession
    rw [update_of_ne heq]
    exact hmeeting other call' p hsession

theorem Keeps.run_induct {first : List (Event Op Result State Choice Env Call α) → Call → κ}
    {I : List (Event Op Result State Choice Env Call α) → Sys Op Result State Call α → (Nat → κ) → Prop}
    {history : List (Event Op Result State Choice Env Call α)} (hkeeps : Keeps M ok first C I)
    (hcalls : ∀ history call, (M.process call).Meets C (first history call) (promise call))
    (hinit : ∃ γ, I [] s γ ∧ Meeting C promise s γ) (hrun : Run M ok s history t) :
    ∃ γ, I history t γ ∧ Meeting C promise t γ := by
  induction hrun with
  | nil => exact hinit
  | @cons history t u a _ hok hstep ih =>
    obtain ⟨γ, hI, hmeeting⟩ := ih
    cases step_cases hstep with
    | start sid call hnew ht =>
      refine ⟨_, hkeeps.start history t γ sid call u hI hok hnew ht, ?_⟩
      subst ht
      refine hmeeting.setSession fun p hp => ?_
      obtain rfl := some.inj hp
      exact hcalls history call
    | run sid choice call o next answer state hsession hexec ht =>
      obtain ⟨hmay, hnext⟩ := hmeeting sid call _ hsession
      obtain ⟨k, hgets, hI'⟩ :=
        hkeeps.run history t γ sid choice call o next answer state u hI hok hsession hmay hexec ht
      refine ⟨_, hI', ?_⟩
      subst ht
      refine hmeeting.setSession fun p hp => ?_
      obtain rfl := some.inj hp
      exact hnext answer k hgets
    | drop sid call p hsession ht =>
      refine ⟨γ, hkeeps.drop history t γ sid call p u hI hok hsession ht, ?_⟩
      subst ht
      have hset : Meeting C promise (t.setSession sid ⟨call, none⟩ t.state)
          (update γ sid (γ sid)) := hmeeting.setSession (by simp)
      rwa [update_eq_self] at hset
    | env e ht =>
      refine ⟨γ, hkeeps.env history t γ e u hI hok ht, ?_⟩
      subst ht
      exact hmeeting

end Interleave
