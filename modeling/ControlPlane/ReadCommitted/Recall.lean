import ControlPlane.ReadCommitted.Script

/-!
# What a session remembers

What a session has gathered from its own operations can be read off a run, and the phases of a
script can carry it along.
-/

namespace ReadCommitted

open Function

variable {Key : Type} [DecidableEq Key] {Row : Key → Type}
  {Index Req Resp Upstream Call α G M : Type}

/-- The operation a step runs for the session, and the scene before it. -/
def Event.does (e : Event Row Index Req Resp Upstream Call α) (sid : Nat) :
    Option (Op Row Req × Scene Row Upstream) :=
  match e.action with
  | .run other _ =>
    if other = sid then
      match e.before.sessions sid with
      | some ⟨_, some (.op o _), tx⟩ => some (o, .of sid e.before.toShared tx)
      | _ => none
    else none
  | _ => none

/-- What a session has gathered from its operations in a run, whose latest step comes first. -/
def gathered (note : M → Op Row Req → Scene Row Upstream → M) (m : M) (sid : Nat) :
    List (Event Row Index Req Resp Upstream Call α) → M
  | [] => m
  | e :: earlier =>
    match e.does sid with
    | some (o, c) => note (gathered note m sid earlier) o c
    | none => gathered note m sid earlier

def recollect (first : Option (AList Row)) : Op Row Req → Scene Row Upstream → Option (AList Row)
  | .snapshot, c => first.or (some c.seen)
  | _, _ => first

def firstSeen (sid : Nat) (history : List (Event Row Index Req Resp Upstream Call α)) :
    Option (AList Row) :=
  gathered recollect none sid history

@[simp]
theorem recall_some (seen : AList Row) (o : Op Row Req) (c : Scene Row Upstream) :
    recollect (some seen) o c = some seen := by
  cases o <;> rfl

omit [DecidableEq Key]

variable {note : M → Op Row Req → Scene Row Upstream → M} {m : M}
  {history : List (Event Row Index Req Resp Upstream Call α)} {sid other : Nat}
  {s t : Sys Row Index Req Resp Upstream Call α} {e : Event Row Index Req Resp Upstream Call α}

theorem Event.does_of_not_run (he : ∀ choice, e.action ≠ .run other choice) :
    e.does other = none := by
  unfold Event.does
  split
  · rename_i sid choice ha
    rw [if_neg]
    rintro rfl
    exact he choice ha
  · rfl

theorem Event.action_of_does {done : Op Row Req × Scene Row Upstream}
    (hdoes : e.does sid = some done) : ∃ choice, e.action = .run sid choice := by
  by_contra hnot
  rw [Event.does_of_not_run fun choice ha => hnot ⟨choice, ha⟩] at hdoes
  cases hdoes

variable {choice : Choice Key} {call : Call} {o : Op Row Req}
  {next : o.Result Resp → Prog Row Req Resp α} {tx : Txn Row}

theorem Event.does_run (hsession : s.sessions sid = some ⟨call, some (.op o next), tx⟩) :
    Event.does ⟨s, .run sid choice, t⟩ sid = some (o, .of sid s.toShared tx) := by
  simp [Event.does, hsession]

theorem gathered_of_not_run {a : Action Key Call} (ha : ∀ choice, a ≠ .run other choice) :
    gathered note m other (⟨s, a, t⟩ :: history) = gathered note m other history := by
  have hdoes : Event.does (⟨s, a, t⟩ : Event Row Index Req Resp Upstream Call α) other = none :=
    Event.does_of_not_run ha
  simp only [gathered, hdoes]

theorem gathered_of_ne (hne : other ≠ sid) :
    gathered note m other (⟨s, .run sid choice, t⟩ :: history) = gathered note m other history :=
  gathered_of_not_run fun _ heq => hne (Action.run.inj heq).1.symm

theorem gathered_run (hsession : s.sessions sid = some ⟨call, some (.op o next), tx⟩) :
    gathered note m sid (⟨s, .run sid choice, t⟩ :: history) =
      note (gathered note m sid history) o (.of sid s.toShared tx) := by
  have hdoes : Event.does ⟨s, .run sid choice, t⟩ sid = some (o, .of sid s.toShared tx) :=
    Event.does_run hsession
  simp only [gathered, hdoes]

theorem gathered_of_idle (hidle : ∀ e ∈ history, ∀ choice, e.action ≠ .run sid choice) :
    gathered note m sid history = m := by
  induction history with
  | nil => rfl
  | cons e earlier ih =>
    obtain ⟨hself, hrest⟩ := List.forall_mem_cons.mp hidle
    rw [gathered, Event.does_of_not_run hself]
    exact ih hrest

/-- The phases of the sessions carry what each of them has gathered. -/
structure Recalled (note : M → Op Row Req → Scene Row Upstream → M) (m : M) (view : G → M)
    (history : List (Event Row Index Req Resp Upstream Call α))
    (s : Sys Row Index Req Resp Upstream Call α) (γ : Nat → G) : Prop where
  view_eq : ∀ sid, view (γ sid) = gathered note m sid history
  unstarted : ∀ sid, s.sessions sid = none → gathered note m sid history = m

namespace Recalled

variable {view : G → M} {γ : Nat → G} {g : G} {p : Prog Row Req Resp α}
  {sh : Shared Row Index Upstream} {tx' : Txn Row}

theorem start (hrecalled : Recalled note m view history s γ) (hnew : s.sessions sid = none)
    (ht : t = s.setSession sid ⟨call, some p, tx⟩ sh) (hg : view g = m) :
    Recalled note m view (⟨s, .start sid call, t⟩ :: history) t (update γ sid g) := by
  have hsame (other : Nat) : gathered note m other (⟨s, .start sid call, t⟩ :: history) =
      gathered note m other history := gathered_of_not_run (by simp)
  constructor
  · intro other
    rw [hsame]
    by_cases heq : other = sid
    · subst heq
      rw [update_self, hg, hrecalled.unstarted other hnew]
    · rw [update_of_ne heq, hrecalled.view_eq]
  · intro other hnone
    subst ht
    obtain ⟨hne, hnone⟩ := setSession_eq_none.mp hnone
    rw [hsame, hrecalled.unstarted other hnone]

theorem run (hrecalled : Recalled note m view history s γ)
    (hsession : s.sessions sid = some ⟨call, some (.op o next), tx⟩)
    (ht : t = s.setSession sid ⟨call, some p, tx'⟩ sh)
    (hg : view g = note (view (γ sid)) o (.of sid s.toShared tx)) :
    Recalled note m view (⟨s, .run sid choice, t⟩ :: history) t (update γ sid g) := by
  constructor
  · intro other
    by_cases heq : other = sid
    · subst heq
      rw [update_self, hg, gathered_run hsession, hrecalled.view_eq]
    · rw [update_of_ne heq, gathered_of_ne heq, hrecalled.view_eq]
  · intro other hnone
    subst ht
    obtain ⟨hne, hnone⟩ := setSession_eq_none.mp hnone
    rw [gathered_of_ne hne, hrecalled.unstarted other hnone]

theorem crash (hrecalled : Recalled note m view history s γ)
    (ht : t = s.setSession sid ⟨call, none, tx'⟩ sh) :
    Recalled note m view (⟨s, .crash sid, t⟩ :: history) t γ := by
  have hsame (other : Nat) : gathered note m other (⟨s, .crash sid, t⟩ :: history) =
      gathered note m other history := gathered_of_not_run (by simp)
  constructor
  · intro other
    rw [hsame, hrecalled.view_eq]
  · intro other hnone
    subst ht
    obtain ⟨hne, hnone⟩ := setSession_eq_none.mp hnone
    rw [hsame, hrecalled.unstarted other hnone]

theorem tick {elapsed : Nat} (hrecalled : Recalled note m view history s γ)
    (ht : t.sessions = s.sessions) :
    Recalled note m view (⟨s, .tick elapsed, t⟩ :: history) t γ := by
  have hsame (other : Nat) : gathered note m other (⟨s, .tick elapsed, t⟩ :: history) =
      gathered note m other history := gathered_of_not_run (by simp)
  constructor
  · intro other
    rw [hsame, hrecalled.view_eq]
  · intro other hnone
    rw [hsame, hrecalled.unstarted other (by rw [← ht, hnone])]

theorem nil (hview : ∀ sid, view (γ sid) = m) : Recalled note m view [] s γ :=
  ⟨fun sid => (hview sid).trans rfl, fun _ _ => rfl⟩

end Recalled

end ReadCommitted
