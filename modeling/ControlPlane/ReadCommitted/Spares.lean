import ControlPlane.ReadCommitted.Program

/-!
# Handlers that spare some rows

A handler that never writes the rows of a set nor calls the service behind it is passed over in one
step.
-/

namespace ReadCommitted

variable {Key : Type} {Row : Key → Type} {Req Resp ε α β : Type} {K K' : Key → Prop} {ends : Bool}

/-- The operation writes no row of `K` and calls no service. It begins or ends a transaction only if
`ends` says that it may. -/
def Op.Spares (K : Key → Prop) (ends : Bool) : Op Row Req → Prop
  | .begin | .commit | .rollback => ends = true
  | .request _ => False
  | .write key _ | .insert key _ | .upsert key _ _ => ¬ K key
  | .utcNow | .sqlNow | .fresh | .snapshot | .shuffle _ | .lock _ | .skipLocked _ => True

def Prog.Spares (K : Key → Prop) (ends : Bool) : Prog Row Req Resp α → Prop
  | .ret _ => True
  | .op o next => o.Spares K ends ∧ ∀ answer, (next answer).Spares K ends

theorem Op.Spares.subset {o : Op Row Req} (hsub : ∀ key, K' key → K key) (ho : o.Spares K ends) :
    o.Spares K' ends := by
  cases o with
  | write key row | insert key row | upsert key row update => exact fun hkey => ho (hsub key hkey)
  | _ => exact ho

variable {p : Prog Row Req Resp α}

theorem Prog.Spares.subset (hsub : ∀ key, K' key → K key) (hp : p.Spares K ends) :
    p.Spares K' ends := by
  induction p with
  | ret value => trivial
  | op o next ih => exact ⟨hp.1.subset hsub, fun answer => ih answer (hp.2 answer)⟩

theorem Prog.Spares.bind {f : α → Prog Row Req Resp β} (hp : p.Spares K ends)
    (hf : ∀ a, (f a).Spares K ends) : (p >>= f).Spares K ends := by
  induction p with
  | ret value => exact hf value
  | op o next ih => exact ⟨hp.1, fun answer => ih answer (hp.2 answer)⟩

namespace Handler

def Spares (K : Key → Prop) (ends : Bool) (h : Handler Row Req Resp ε α) : Prop :=
  Prog.Spares K ends h.run

theorem spares_run {K : Key → Prop} {ends : Bool} {h : Handler Row Req Resp ε α} :
    Prog.Spares K ends h.run ↔ Spares K ends h := Iff.rfl

namespace Spares

variable {h : Handler Row Req Resp ε α} {key : Key} {qualifies : Row key → Bool}

theorem subset {K' : Key → Prop} (hsub : ∀ key, K' key → K key) (hspares : Spares K ends h) :
    Spares K' ends h := Prog.Spares.subset hsub hspares

theorem pure (a : α) : Spares K ends (Pure.pure a : Handler Row Req Resp ε α) := trivial

theorem throw (e : ε) : Spares K ends (throw e : Handler Row Req Resp ε α) := trivial

theorem bind {f : α → Handler Row Req Resp ε β} (hspares : Spares K ends h)
    (hf : ∀ a, Spares K ends (f a)) : Spares K ends (h >>= f) := by
  unfold Spares
  rw [ExceptT.run_bind]
  refine Prog.Spares.bind hspares fun r => ?_
  cases r with
  | ok a => exact hf a
  | error e => trivial

theorem ask {o : Op Row Req} (ho : o.Spares K ends) :
    Spares K ends (Handler.ask o : Handler Row Req Resp ε _) := ⟨ho, fun _ => trivial⟩

theorem utcNow : Spares K ends (Handler.utcNow : Handler Row Req Resp ε _) := ask trivial

theorem sqlNow : Spares K ends (Handler.sqlNow : Handler Row Req Resp ε _) := ask trivial

theorem fresh : Spares K ends (Handler.fresh : Handler Row Req Resp ε _) := ask trivial

theorem snapshot : Spares K ends (Handler.snapshot : Handler Row Req Resp ε _) := ask trivial

theorem lock (key : Key) : Spares K ends (Handler.lock key : Handler Row Req Resp ε _) :=
  ask trivial

theorem ensure {condition : Prop} [Decidable condition] (e : ε) :
    Spares K ends (Handler.ensure condition e : Handler Row Req Resp ε Unit) := by
  unfold Handler.ensure
  split_ifs <;> trivial

theorem okOr (value : Option α) (e : ε) :
    Spares K ends (Handler.okOr value e : Handler Row Req Resp ε α) := by
  cases value <;> trivial

theorem require (value : Except ε α) :
    Spares K ends (Handler.require value : Handler Row Req Resp ε α) := trivial

theorem whenever {condition : Prop} [Decidable condition] {body : Handler Row Req Resp ε Unit}
    (hspares : Spares K ends body) : Spares K ends (Handler.whenever condition body) := by
  unfold Handler.whenever
  split_ifs
  · exact hspares
  · trivial

theorem forSome {value : Option α} {body : α → Handler Row Req Resp ε Unit}
    (hspares : ∀ a, Spares K ends (body a)) : Spares K ends (Handler.forSome value body) := by
  cases value with
  | none => trivial
  | some a => exact hspares a

theorem attempt (hspares : Spares K ends h) : Spares K ends (Handler.attempt h) :=
  Prog.Spares.bind hspares fun _ => trivial

theorem inTransaction (hspares : Spares K true h) : Spares K true (Handler.inTransaction h) := by
  refine ⟨rfl, fun _ => ?_⟩
  refine Prog.Spares.bind (p := h.run) hspares fun r => ?_
  cases r <;> exact ⟨rfl, fun _ => trivial⟩

theorem lockIf : Spares K ends (Handler.lockIf key qualifies : Handler Row Req Resp ε _) :=
  bind (lock key) fun _ => pure _

theorem firstLocked {qualifies : (key : Key) → Row key → Bool} (keys : List Key) :
    Spares K ends (Handler.firstLocked qualifies keys : Handler Row Req Resp ε _) := by
  induction keys with
  | nil => trivial
  | cons key rest ih =>
    refine bind lockIf fun row => ?_
    cases row with
    | none => exact ih
    | some row => trivial

variable [OfConstraint ε]

theorem insert {row : AList Row → Row key} (hkey : ¬ K key) :
    Spares K ends (Handler.insert key row : Handler Row Req Resp ε Bool) :=
  bind (ask (o := .insert key row) hkey) fun r => by cases r <;> trivial

theorem write {row : Row key} (hkey : ¬ K key) :
    Spares K ends (Handler.write key row : Handler Row Req Resp ε Unit) :=
  bind (ask (o := .write key row) hkey) fun r => by cases r <;> trivial

theorem upsert {row : Row key} {update : Row key → Row key} (hkey : ¬ K key) :
    Spares K ends (Handler.upsert key row update : Handler Row Req Resp ε (Row key)) :=
  bind (ask (o := .upsert key row update) hkey) fun r => by cases r <;> trivial

theorem updateRow [DecidableEq Key] {set : AList Row → Row key → Row key} (hkey : ¬ K key) :
    Spares K ends (Handler.updateRow key qualifies set : Handler Row Req Resp ε _) := by
  refine bind snapshot fun seen => ?_
  cases (seen.lookup key).filter qualifies with
  | none => trivial
  | some _ =>
    refine bind lockIf fun row => ?_
    cases row with
    | none => trivial
    | some row => exact bind (write hkey) fun _ => pure _

end Spares

end Handler

-- from here on programs are only taken apart by the rules
attribute [irreducible] Handler.Spares

end ReadCommitted
