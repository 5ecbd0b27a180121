import ControlPlane.ReadCommitted.Serial
import ControlPlane.ReadCommitted.Spares

/-!
# Rules for calls served one at a time

`Handler.serial` for the combinators handlers are written with. Transactions leave nothing locked,
and a handler leaves a row it spares as it was.
-/

namespace ReadCommitted

open Option AList

variable {Key : Type} [DecidableEq Key] {Row : Key → Type} {Index Req Resp Upstream ε α β : Type}
  {S : Schema Row Index Req Resp Upstream} {v : View Row Upstream} {h : Handler Row Req Resp ε α}

def saved (db : AList Row) (key : Key) (row : Row key) : AList Row :=
  (∅ : AList Row).insert key row ∪ db

@[simp]
theorem lookup_saved_self (db : AList Row) (key : Key) (row : Row key) :
    (saved db key row).lookup key = some row := by
  rw [saved, lookup_union, lookup_insert, some_or]

@[simp]
theorem lookup_saved_of_ne (db : AList Row) {key other : Key} (row : Row key) (hne : other ≠ key) :
    (saved db key row).lookup other = db.lookup other := by
  rw [saved, lookup_union, lookup_insert_ne hne, lookup_empty, none_or]

theorem keys_saved (db : AList Row) (key : Key) (row : Row key) :
    (saved db key row).keys = key :: db.keys.erase key := by
  rw [show saved db key row = db.insert key row from ext rfl, keys_insert]

namespace View

@[simp]
theorem between_seen (db : AList Row) (upstream : Upstream) (n : Nat) :
    (between db upstream n).seen = db :=
  empty_union

@[simp]
theorem engage_seen : v.engage.seen = v.seen := rfl

omit [DecidableEq Key] in
@[simp]
theorem between_settled (db : AList Row) (upstream : Upstream) (n : Nat) :
    (between db upstream n).settled db = between db upstream n := rfl

omit [DecidableEq Key] in
@[simp]
theorem engage_settled (db : AList Row) : v.engage.settled db = v.settled db := rfl

theorem between_put (db : AList Row) (upstream : Upstream) (n : Nat) (key : Key) (row : Row key) :
    ((between db upstream n).put key row).settled ((between db upstream n).put key row).seen =
      between (saved db key row) upstream n := rfl

theorem verdict_of_index_none [DecidableEq Index] {key : Key} {old : Option (Row key)}
    {row : Row key} (hindex : S.index key row = none) :
    v.verdict S key old row = if S.check key row then .accept else .refuse .check := by
  simp only [verdict, hindex]

@[simp]
theorem lookup_seen (key : Key) :
    v.seen.lookup key = (v.writes.lookup key).or (v.committed.lookup key) :=
  lookup_union _ _ _

end View

namespace Handler

variable [DecidableEq Index]

/-- What has to hold before a handler that runs alone, for a result to satisfy `Q` and an error
`E`. -/
def serial (S : Schema Row Index Req Resp Upstream) (h : Handler Row Req Resp ε α)
    (v : View Row Upstream) (Q : α → View Row Upstream → Prop) (E : ε → View Row Upstream → Prop) :
    Prop :=
  Prog.serial S h.run v fun r v' =>
    match r with
    | .ok a => Q a v'
    | .error e => E e v'

variable {Q Q' : α → View Row Upstream → Prop} {E E' : ε → View Row Upstream → Prop} {e : ε}

theorem serial_run {R : Except ε α → View Row Upstream → Prop} :
    h.run.serial S v R ↔ serial S h v (fun a => R (.ok a)) fun e => R (.error e) := by
  constructor <;> refine fun hs => Prog.serial_mono (fun r v' hr => ?_) hs <;> cases r <;> exact hr

theorem serial_mono (hQ : ∀ a v', Q a v' → Q' a v') (hE : ∀ e v', E e v' → E' e v')
    (hs : serial S h v Q E) : serial S h v Q' E' := by
  refine Prog.serial_mono (fun r v' hr => ?_) hs
  cases r with
  | ok a => exact hQ a v' hr
  | error e => exact hE e v' hr

theorem serial_of_forall (hQ : ∀ a v', Q a v') (hE : ∀ e v', E e v') : serial S h v Q E := by
  refine Prog.serial_of_forall fun r v' => ?_
  cases r with
  | ok a => exact hQ a v'
  | error e => exact hE e v'

@[simp]
theorem serial_pure {a : α} : serial S (pure a : Handler Row Req Resp ε α) v Q E ↔ Q a v := Iff.rfl

@[simp]
theorem serial_throw : serial S (throw e : Handler Row Req Resp ε α) v Q E ↔ E e v := Iff.rfl

@[simp]
theorem serial_bind {f : α → Handler Row Req Resp ε β} {Q : β → View Row Upstream → Prop} :
    serial S (h >>= f) v Q E ↔ serial S h v (fun a v' => serial S (f a) v' Q E) E := by
  unfold serial
  rw [ExceptT.run_bind, Prog.serial_bind]
  constructor <;> refine fun hs => Prog.serial_mono (fun r v' hr => ?_) hs <;> cases r <;> exact hr

@[simp]
theorem serial_map {f : α → β} {Q : β → View Row Upstream → Prop} :
    serial S (f <$> h) v Q E ↔ serial S h v (fun a v' => Q (f a) v') E := by
  change Prog.serial S (h.run >>= _) v _ ↔ _
  rw [Prog.serial_bind]
  constructor <;> refine fun hs => Prog.serial_mono (fun r v' hr => ?_) hs <;> cases r <;> exact hr

@[simp]
theorem serial_utcNow {Q : Instant → View Row Upstream → Prop} :
    serial S (utcNow : Handler Row Req Resp ε _) v Q E ↔ ∀ t, Q t v := Iff.rfl

@[simp]
theorem serial_sqlNow {Q : Instant → View Row Upstream → Prop} :
    serial S (sqlNow : Handler Row Req Resp ε _) v Q E ↔ ∀ t, Q t v := Iff.rfl

@[simp]
theorem serial_fresh {Q : Nat → View Row Upstream → Prop} :
    serial S (fresh : Handler Row Req Resp ε _) v Q E ↔ ∀ n, v.issued ≤ n → Q n v := Iff.rfl

@[simp]
theorem serial_snapshot {Q : AList Row → View Row Upstream → Prop} :
    serial S (snapshot : Handler Row Req Resp ε _) v Q E ↔ Q v.seen v := Iff.rfl

variable {key : Key}

@[simp]
theorem serial_lock {Q : Option (Row key) → View Row Upstream → Prop} :
    serial S (lock key : Handler Row Req Resp ε _) v Q E ↔ Q (v.seen.lookup key) v.engage := Iff.rfl

@[simp]
theorem serial_request {req : Req} {Q : Resp → View Row Upstream → Prop} :
    serial S (request req : Handler Row Req Resp ε _) v Q E ↔
      ∀ answer upstream', Served S req v.upstream answer upstream' →
        Q answer { v with upstream := upstream' } := Iff.rfl

@[simp]
theorem serial_ensure {condition : Prop} [Decidable condition] {Q : Unit → View Row Upstream → Prop} :
    serial S (ensure condition e : Handler Row Req Resp ε Unit) v Q E ↔
      (condition → Q () v) ∧ (¬ condition → E e v) := by
  unfold ensure
  split_ifs with hcond <;> simp [hcond]

@[simp]
theorem serial_okOr {value : Option α} :
    serial S (okOr value e : Handler Row Req Resp ε α) v Q E ↔
      (∀ a, value = some a → Q a v) ∧ (value = none → E e v) := by
  cases value <;> simp [okOr]

@[simp]
theorem serial_require {value : Except ε α} :
    serial S (require value : Handler Row Req Resp ε α) v Q E ↔
      (∀ a, value = .ok a → Q a v) ∧ ∀ e, value = .error e → E e v := by
  cases value with
  | ok a =>
    change Q a v ↔ _
    simp
  | error e =>
    change E e v ↔ _
    simp

theorem serial_require_ok {a : α} :
    serial S (require (.ok a) : Handler Row Req Resp ε α) v Q E ↔ Q a v := .rfl

@[simp]
theorem serial_mapErr {f : ε → ε} :
    serial S (mapErr f h) v Q E ↔ serial S h v Q fun e v' => E (f e) v' := by
  unfold serial mapErr
  rw [ExceptT.run_mk, Prog.serial_bind]
  constructor <;> refine fun hs => Prog.serial_mono (fun r v' hr => ?_) hs <;> cases r <;> exact hr

@[simp]
theorem serial_whenever {condition : Prop} [Decidable condition]
    {body : Handler Row Req Resp ε Unit} {Q : Unit → View Row Upstream → Prop} :
    serial S (whenever condition body) v Q E ↔
      (condition → serial S body v Q E) ∧ (¬ condition → Q () v) := by
  unfold whenever
  split_ifs with hcond <;> simp [hcond]

@[simp]
theorem serial_attempt {Q : Except ε α → View Row Upstream → Prop} :
    serial S (attempt h) v Q E ↔
      serial S h v (fun a v' => Q (.ok a) v') fun e v' => Q (.error e) v' := by
  unfold serial attempt
  rw [show (ExceptT.lift h.run).run = h.run >>= fun r => pure (.ok r) from rfl, Prog.serial_bind]
  constructor <;> refine fun hs => Prog.serial_mono (fun r v' hr => ?_) hs <;> cases r <;> exact hr

@[simp]
theorem serial_inTransaction :
    serial S (inTransaction h) v Q E ↔
      serial S h v (fun a v' => Q a (v'.settled v'.seen)) fun e v' => E e (v'.settled v'.committed) := by
  change Prog.serial S (h.run >>= _) v _ ↔ _
  rw [Prog.serial_bind]
  constructor <;> refine fun hs => Prog.serial_mono (fun r v' hr => ?_) hs <;> cases r <;> exact hr

variable [OfConstraint ε]

@[simp]
theorem serial_upsert {row : Row key} {update : Row key → Row key}
    {Q : Row key → View Row Upstream → Prop} :
    serial S (upsert key row update : Handler Row Req Resp ε (Row key)) v Q E ↔
      (S.check key row = true → v.verdict S key (v.seen.lookup key)
          ((v.seen.lookup key).elim row update) = .accept →
        Q ((v.seen.lookup key).elim row update) (v.put key ((v.seen.lookup key).elim row update))) ∧
      (∀ e, v.verdict S key (v.seen.lookup key) ((v.seen.lookup key).elim row update) = .refuse e →
        E (OfConstraint.ofConstraint e) v) ∧
      (S.check key row = false → E (OfConstraint.ofConstraint .check) v) := Iff.rfl

@[simp]
theorem serial_insert {row : AList Row → Row key} {Q : Bool → View Row Upstream → Prop} :
    serial S (insert key row : Handler Row Req Resp ε Bool) v Q E ↔
      (v.verdict S key none (row v.seen) = .accept → key ∉ v.seen → Q true (v.put key (row v.seen))) ∧
      (v.verdict S key none (row v.seen) = .refuse .unique ∨ key ∈ v.seen → Q false v) ∧
      (v.verdict S key none (row v.seen) = .refuse .check → E (OfConstraint.ofConstraint .check) v) :=
  Iff.rfl

@[simp]
theorem serial_write {row : Row key} {Q : Unit → View Row Upstream → Prop} :
    serial S (write key row : Handler Row Req Resp ε Unit) v Q E ↔
      (v.verdict S key (v.seen.lookup key) row = .accept → Q () (v.put key row)) ∧
        ∀ e, v.verdict S key (v.seen.lookup key) row = .refuse e → E (OfConstraint.ofConstraint e) v :=
  Iff.rfl

/-- An `UPDATE` by key of a handler that runs alone judges and writes the version it saw. -/
theorem serial_updateRow {qualifies : Row key → Bool} {set : AList Row → Row key → Row key}
    {Q : Option (Row key) → View Row Upstream → Prop}
    (hmiss : (∀ row, v.seen.lookup key = some row → qualifies row = false) → Q none v)
    (hhit : ∀ row, v.seen.lookup key = some row → qualifies row = true →
      (v.verdict S key (some row) (set v.seen row) = .accept →
      Q (some (set v.seen row)) (v.put key (set v.seen row))) ∧
      ∀ e, v.verdict S key (some row) (set v.seen row) = .refuse e →
      E (OfConstraint.ofConstraint e) v.engage) :
    serial S (updateRow key qualifies set : Handler Row Req Resp ε _) v Q E := by
  unfold updateRow
  rw [serial_bind, serial_snapshot]
  cases hfound : (v.seen.lookup key).filter qualifies with
  | none =>
    refine hmiss fun row hrow => ?_
    simpa [hrow] using hfound
  | some row =>
    obtain ⟨hrow, hqualifies⟩ := filter_eq_some_iff.mp hfound
    obtain ⟨hok, herror⟩ := hhit row hrow hqualifies
    have hlocked : v.engage.seen.lookup key = some row := hrow
    simp only [lockIf, serial_bind, serial_lock, serial_pure, hfound, serial_write, hlocked]
    exact ⟨hok, herror⟩

/-- The first row in the order of the keys that qualifies. -/
def firstOf (db : AList Row) (qualifies : (key : Key) → Row key → Bool) (keys : List Key) :
    Option (Σ key, Row key) :=
  keys.findSome? fun key => ((db.lookup key).filter (qualifies key)).map fun row => ⟨key, row⟩

omit [OfConstraint ε] in
theorem serial_firstLocked {qualifies : (key : Key) → Row key → Bool} {keys : List Key}
    {Q : Option (Σ key, Row key) → View Row Upstream → Prop}
    (hQ : ∀ v', v' = v ∨ v' = v.engage → Q (firstOf v.seen qualifies keys) v') :
    serial S (firstLocked qualifies keys : Handler Row Req Resp ε _) v Q E := by
  induction keys generalizing v with
  | nil => exact hQ v (Or.inl rfl)
  | cons key rest ih =>
    simp only [firstLocked, lockIf, serial_bind, serial_lock, serial_pure]
    cases hfound : (v.seen.lookup key).filter (qualifies key) with
    | some row =>
      have hfirst : firstOf v.seen qualifies (key :: rest) = some ⟨key, row⟩ := by
        simp only [firstOf, List.findSome?_cons, hfound, map_some]
      have hlocked := hQ v.engage (Or.inr rfl)
      rw [hfirst] at hlocked
      exact hlocked
    | none =>
      have hrest : firstOf v.seen qualifies (key :: rest) = firstOf v.seen qualifies rest := by
        simp only [firstOf, List.findSome?_cons, hfound, map_none]
      rw [hrest] at hQ
      refine ih fun v' hv' => hQ v' (Or.inr ?_)
      rcases hv' with rfl | rfl <;> rfl

def Closed (S : Schema Row Index Req Resp Upstream) (h : Handler Row Req Resp ε α) : Prop :=
  ∀ v : View Row Upstream, v.engaged = false →
    serial S h v (fun _ v' => v'.engaged = false) fun _ v' => v'.engaged = false

namespace Closed

omit [OfConstraint ε]

theorem pure (a : α) : Closed S (Pure.pure a : Handler Row Req Resp ε α) := fun _ hv => hv

theorem throw (e : ε) : Closed S (throw e : Handler Row Req Resp ε α) := fun _ hv => hv

theorem bind {f : α → Handler Row Req Resp ε β} (hclosed : Closed S h)
    (hf : ∀ a, Closed S (f a)) : Closed S (h >>= f) := by
  intro v hv
  rw [serial_bind]
  exact serial_mono (fun a v' hv' => hf a v' hv') (fun _ _ hv' => hv') (hclosed v hv)

theorem map {f : α → β} (hclosed : Closed S h) : Closed S (f <$> h) := by
  intro v hv
  rw [serial_map]
  exact hclosed v hv

theorem utcNow : Closed S (Handler.utcNow : Handler Row Req Resp ε _) := fun _ hv _ => hv

theorem fresh : Closed S (Handler.fresh : Handler Row Req Resp ε _) := fun _ hv _ _ => hv

theorem snapshot : Closed S (Handler.snapshot : Handler Row Req Resp ε _) := fun _ hv => hv

theorem request (req : Req) : Closed S (Handler.request req : Handler Row Req Resp ε _) :=
  fun _ hv _ _ _ => hv

theorem ensure {condition : Prop} [Decidable condition] (e : ε) :
    Closed S (Handler.ensure condition e : Handler Row Req Resp ε Unit) := by
  intro v hv
  rw [serial_ensure]
  exact ⟨fun _ => hv, fun _ => hv⟩

theorem okOr (value : Option α) (e : ε) :
    Closed S (Handler.okOr value e : Handler Row Req Resp ε α) := by
  intro v hv
  rw [serial_okOr]
  exact ⟨fun _ _ => hv, fun _ => hv⟩

theorem require (value : Except ε α) :
    Closed S (Handler.require value : Handler Row Req Resp ε α) := by
  intro v hv
  rw [serial_require]
  exact ⟨fun _ _ => hv, fun _ _ => hv⟩

theorem mapErr {f : ε → ε} (hclosed : Closed S h) : Closed S (Handler.mapErr f h) := by
  intro v hv
  rw [serial_mapErr]
  exact hclosed v hv

theorem whenever {condition : Prop} [Decidable condition] {body : Handler Row Req Resp ε Unit}
    (hclosed : Closed S body) : Closed S (Handler.whenever condition body) := by
  intro v hv
  rw [serial_whenever]
  exact ⟨fun _ => hclosed v hv, fun _ => hv⟩

theorem attempt (hclosed : Closed S h) : Closed S (Handler.attempt h) := by
  intro v hv
  rw [serial_attempt]
  exact hclosed v hv

theorem inTransaction : Closed S (Handler.inTransaction h) := by
  intro v _
  rw [serial_inTransaction]
  exact serial_of_forall (fun _ _ => rfl) fun _ _ => rfl

end Closed

end Handler

/-- The rows of `K` are as they were before, and not among the pending writes. -/
def Kept (K : Key → Prop) (v v' : View Row Upstream) : Prop :=
  ∀ key, K key → v'.writes.lookup key = none ∧ v'.committed.lookup key = v.committed.lookup key

variable [DecidableEq Index] {K : Key → Prop} {v₀ : View Row Upstream}

theorem Op.serial_kept {o : Op Row Req} (hspares : o.Spares K true) (hkept : Kept K v₀ v) :
    o.serial S v fun (_ : o.Result Resp) v' => Kept K v₀ v' := by
  have hput : ∀ key (row : Row key), ¬ K key → Kept K v₀ (v.put key row) := by
    intro key row hkey k hk
    have hne : k ≠ key := by
      rintro rfl
      exact hkey hk
    exact ⟨by rw [View.put, lookup_insert_ne hne]; exact (hkept k hk).1, (hkept k hk).2⟩
  cases o with
  | begin | snapshot | lock | skipLocked => exact hkept
  | rollback => exact fun k hk => ⟨rfl, (hkept k hk).2⟩
  | commit =>
    intro k hk
    obtain ⟨hwrites, hcommitted⟩ := hkept k hk
    exact ⟨rfl, by rw [View.settled, View.lookup_seen, hwrites, none_or, hcommitted]⟩
  | utcNow | sqlNow => exact fun _ => hkept
  | fresh | shuffle => exact fun _ _ => hkept
  | write key => exact ⟨fun _ => hput key _ hspares, fun _ _ => hkept⟩
  | upsert key => exact ⟨fun _ _ => hput key _ hspares, fun _ _ => hkept, fun _ => hkept⟩
  | insert key => exact ⟨fun _ _ => hput key _ hspares, fun _ => hkept, fun _ => hkept⟩
  | request => exact hspares.elim

theorem Prog.Spares.serial {p : Prog Row Req Resp α} (hp : p.Spares K true) :
    ∀ {v : View Row Upstream}, Kept K v₀ v → p.serial S v fun _ v' => Kept K v₀ v' := by
  induction p with
  | ret value => exact fun hkept => hkept
  | op o next ih =>
    exact fun hkept => Op.serial_mono (fun answer _ hkept' => ih answer (hp.2 answer) hkept')
      (Op.serial_kept hp.1 hkept)

theorem Handler.Spares.serial (hspares : Spares K true h) (hkept : Kept K v₀ v) :
    Handler.serial S h v (fun _ v' => Kept K v₀ v') fun _ v' => Kept K v₀ v' := by
  refine Prog.serial_mono (fun r v' hr => ?_) (Prog.Spares.serial (spares_run.mpr hspares) hkept)
  cases r <;> exact hr

-- from here on programs are only taken apart by the rules
attribute [irreducible] Handler.serial

theorem Serves.handled {Call : Type} {V : Server Row Index Req Resp Upstream Call (Except ε α)}
    {s t : Sys Row Index Req Resp Upstream Call (Except ε α)} {call : Call} {answer : Except ε α}
    {Q : Except ε α → AList Row → Upstream → Prop} {issued : Nat}
    (hserves : Serves V s call answer t) (hquiet : Quiescent s.toShared)
    (hissued : issued ≤ s.nextId) (hrun : V.handler call = h.run) (hclosed : h.Closed V.schema)
    (hspec : h.serial V.schema (.between s.committed s.upstream issued)
      (fun a v => Q (.ok a) v.committed v.upstream) fun e v => Q (.error e) v.committed v.upstream) :
    Quiescent t.toShared ∧ Q answer t.committed t.upstream := by
  refine hserves.spec hquiet hissued ?_
  rw [hrun]
  refine Prog.serial_and ?_ ?_
  · rw [Handler.serial_run]
    exact hclosed _ rfl
  · rw [Handler.serial_run]
    exact hspec

end ReadCommitted
