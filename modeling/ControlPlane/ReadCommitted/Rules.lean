import ControlPlane.ReadCommitted.Contract

/-!
# Rules for handlers

Weakest preconditions with a postcondition for a result and one for an error, and the rules for the
combinators. `simp` knows those that need no invariant.
-/

namespace ReadCommitted

open Function List

variable {Key : Type} {Row : Key → Type} {Req Resp ε α β : Type}

namespace Local

variable (l : Local Row)

@[simp] theorem fresh_readings : (fresh : Local Row).readings = [] := rfl
@[simp] theorem fresh_held (key : Key) : (fresh : Local Row).held key = none := rfl
@[simp] theorem fresh_writes : (fresh : Local Row).writes = ∅ := rfl

variable (saved db : AList Row)

@[simp] theorem ended_saved : (l.ended saved).saved = saved := rfl

@[simp] theorem reading_readings (t : Instant) : (l.reading t).readings = t :: l.readings := rfl
@[simp] theorem reading_held (t : Instant) (key : Key) : (l.reading t).held key = l.held key := rfl
@[simp] theorem reading_writes (t : Instant) : (l.reading t).writes = l.writes := rfl

@[simp] theorem seeing_held (key : Key) : (l.seeing db).held key = l.held key := rfl
@[simp] theorem seeing_writes : (l.seeing db).writes = l.writes := rfl
@[simp] theorem seeing_saved : (l.seeing db).saved = l.saved := rfl

structure Idle : Prop where
  held : ∀ key, l.held key = none
  writes : l.writes = ∅

theorem idle_fresh : (fresh : Local Row).Idle := ⟨fun _ => rfl, rfl⟩

theorem idle_ended : (l.ended saved).Idle := ⟨fun _ => rfl, rfl⟩

variable {l db} in
theorem Idle.seeing (hidle : l.Idle) : (l.seeing db).Idle := ⟨hidle.held, hidle.writes⟩

variable {l} in
theorem Idle.reading {t : Instant} (hidle : l.Idle) : (l.reading t).Idle :=
  ⟨hidle.held, hidle.writes⟩

variable [DecidableEq Key] (key other : Key) (row : Row key)

@[simp] theorem hold_readings : (l.hold key row).readings = l.readings := rfl
@[simp] theorem hold_writes : (l.hold key row).writes = l.writes := rfl
@[simp] theorem hold_held_self : (l.hold key row).held key = some row := update_self ..

variable {key other} in
@[simp] theorem hold_held_of_ne (hne : other ≠ key) : (l.hold key row).held other = l.held other :=
  update_of_ne hne ..

@[simp] theorem put_writes : (l.put key row).writes = l.writes.insert key row := rfl

variable {key other} in
@[simp] theorem put_held_of_ne (hne : other ≠ key) : (l.put key row).held other = l.held other :=
  update_of_ne hne ..

variable {l key row}

theorem hold_eq_self (hheld : l.held key = some row) : l.hold key row = l := by
  simp [hold, ← hheld]

theorem put_hold (new : Row key) : (l.hold key row).put key new = l.put key new := by
  simp [put, hold]

omit [DecidableEq Key] in
theorem MayFind.eq_of_held {C : Contract Row} {known : Row key} (hfind : l.MayFind C key row)
    (hheld : l.held key = some known) : row = known :=
  (hfind.1 known hheld).symm

end Local

namespace Handler

variable [DecidableEq Key]

/-- What has to hold before, for a result to satisfy `Q` and an error `E`. -/
def wp (C : Contract Row) (h : Handler Row Req Resp ε α) (l : Local Row)
    (Q : α → Local Row → Prop) (E : ε → Local Row → Prop) : Prop :=
  Prog.wp C h.run l fun r l' =>
    match r with
    | .ok a => Q a l'
    | .error e => E e l'

variable {C : Contract Row} {l : Local Row} {Q Q' : α → Local Row → Prop}
  {E E' : ε → Local Row → Prop} {h : Handler Row Req Resp ε α} {e : ε} {key : Key}
  {value : Option α}

theorem wp_run {R : Except ε α → Local Row → Prop} :
    h.run.wp C l R ↔ wp C h l (fun a => R (.ok a)) fun e => R (.error e) := by
  constructor <;> refine fun hwp => Prog.wp_mono (fun r l' hr => ?_) hwp <;> cases r <;> exact hr

theorem wp_mono (hQ : ∀ a l', Q a l' → Q' a l') (hE : ∀ e l', E e l' → E' e l')
    (hwp : wp C h l Q E) : wp C h l Q' E' := by
  refine Prog.wp_mono (fun r l' hr => ?_) hwp
  cases r with
  | ok a => exact hQ a l' hr
  | error e => exact hE e l' hr

@[simp]
theorem wp_pure {a : α} : wp C (pure a : Handler Row Req Resp ε α) l Q E ↔ Q a l := Iff.rfl

@[simp]
theorem wp_throw : wp C (throw e : Handler Row Req Resp ε α) l Q E ↔ E e l := Iff.rfl

@[simp]
theorem wp_bind {f : α → Handler Row Req Resp ε β} {Q : β → Local Row → Prop} :
    wp C (h >>= f) l Q E ↔ wp C h l (fun a l' => wp C (f a) l' Q E) E := by
  unfold wp
  rw [ExceptT.run_bind, Prog.wp_bind]
  constructor <;> refine fun hwp => Prog.wp_mono (fun r l' hr => ?_) hwp <;> cases r <;> exact hr

@[simp]
theorem wp_utcNow {Q : Instant → Local Row → Prop} :
    wp C (utcNow : Handler Row Req Resp ε _) l Q E ↔ C.resume l.saved ∧
      ∀ t, Q t (l.reading t) := Iff.rfl

@[simp]
theorem wp_sqlNow {Q : Instant → Local Row → Prop} :
    wp C (sqlNow : Handler Row Req Resp ε _) l Q E ↔ C.resume l.saved ∧
      ∀ t, Q t l := Iff.rfl

@[simp]
theorem wp_fresh {Q : Nat → Local Row → Prop} :
    wp C (fresh : Handler Row Req Resp ε _) l Q E ↔ C.resume l.saved ∧
      ∀ n, Q n l := Iff.rfl

@[simp]
theorem wp_snapshot {Q : AList Row → Local Row → Prop} :
    wp C (snapshot : Handler Row Req Resp ε _) l Q E ↔ C.resume l.saved ∧
      ∀ db, l.Sees C db → Q db (l.seeing db) := Iff.rfl

@[simp]
theorem wp_shuffle {keys : List Key} {Q : List Key → Local Row → Prop} :
    wp C (shuffle keys : Handler Row Req Resp ε _) l Q E ↔ C.resume l.saved ∧
      ∀ order, order.Perm keys → Q order l := Iff.rfl

@[simp]
theorem wp_lock {Q : Option (Row key) → Local Row → Prop} :
    wp C (lock key : Handler Row Req Resp ε _) l Q E ↔ C.resume l.saved ∧
      (l.held key = none → ¬ l.present key → Q none l) ∧
        ∀ row, l.MayFind C key row → Q (some row) (l.hold key row) := Iff.rfl

@[simp]
theorem wp_skipLocked {Q : Option (Row key) → Local Row → Prop} :
    wp C (skipLocked key : Handler Row Req Resp ε _) l Q E ↔ C.resume l.saved ∧
      Q none l ∧ ∀ row, l.MayFind C key row → Q (some row) (l.hold key row) := Iff.rfl

@[simp]
theorem wp_request {req : Req} {Q : Resp → Local Row → Prop} :
    wp C (request req : Handler Row Req Resp ε _) l Q E ↔ C.resume l.saved ∧
      ∀ answer, Q answer l := Iff.rfl

@[simp]
theorem wp_map {f : α → β} {Q : β → Local Row → Prop} :
    wp C (f <$> h) l Q E ↔ wp C h l (fun a l' => Q (f a) l') E := by
  change Prog.wp C (h.run >>= _) l _ ↔ _
  rw [Prog.wp_bind]
  constructor <;> refine fun hwp => Prog.wp_mono (fun r l' hr => ?_) hwp <;> cases r <;> exact hr

@[simp]
theorem wp_ensure {condition : Prop} [Decidable condition] {Q : Unit → Local Row → Prop} :
    wp C (ensure condition e : Handler Row Req Resp ε Unit) l Q E ↔
      (condition → Q () l) ∧ (¬ condition → E e l) := by
  unfold ensure
  split_ifs with hcond <;> simp [hcond]

@[simp]
theorem wp_okOr :
    wp C (okOr value e : Handler Row Req Resp ε α) l Q E ↔
      (∀ a, value = some a → Q a l) ∧ (value = none → E e l) := by
  cases value <;> simp [okOr]

@[simp]
theorem wp_require {value : Except ε α} :
    wp C (require value : Handler Row Req Resp ε α) l Q E ↔
      (∀ a, value = .ok a → Q a l) ∧ ∀ e, value = .error e → E e l := by
  cases value with
  | ok a =>
    change Q a l ↔ _
    simp
  | error e =>
    change E e l ↔ _
    simp

@[simp]
theorem wp_whenever {condition : Prop} [Decidable condition] {body : Handler Row Req Resp ε Unit}
    {Q : Unit → Local Row → Prop} :
    wp C (whenever condition body) l Q E ↔
      (condition → wp C body l Q E) ∧ (¬ condition → Q () l) := by
  unfold whenever
  split_ifs with hcond <;> simp [hcond]

@[simp]
theorem wp_forSome {body : α → Handler Row Req Resp ε Unit} {Q : Unit → Local Row → Prop} :
    wp C (forSome value body) l Q E ↔
      (∀ a, value = some a → wp C (body a) l Q E) ∧ (value = none → Q () l) := by
  cases value <;> simp [forSome]

@[simp]
theorem wp_mapErr {f : ε → ε} : wp C (mapErr f h) l Q E ↔ wp C h l Q fun e l' => E (f e) l' := by
  unfold wp mapErr
  rw [ExceptT.run_mk, Prog.wp_bind]
  constructor <;> refine fun hwp => Prog.wp_mono (fun r l' hr => ?_) hwp <;> cases r <;> exact hr

@[simp]
theorem wp_attempt {Q : Except ε α → Local Row → Prop} :
    wp C (attempt h) l Q E ↔ wp C h l (fun a l' => Q (.ok a) l') fun e l' => Q (.error e) l' := by
  unfold wp attempt
  rw [show (ExceptT.lift h.run).run = h.run >>= fun r => pure (.ok r) from rfl, Prog.wp_bind]
  constructor <;> refine fun hwp => Prog.wp_mono (fun r l' hr => ?_) hwp <;> cases r <;> exact hr

@[simp]
theorem wp_inTransaction :
    wp C (inTransaction h) l Q E ↔ C.resume l.saved ∧
      wp C h l (fun a l' => C.resume l'.saved ∧ C.commit l'.writes ∧ Q a (l'.ended l'.writes))
        fun e l' => C.resume l'.saved ∧ E e (l'.ended l'.saved) := by
  unfold wp inTransaction
  rw [ExceptT.run_mk, Prog.wp_bind, Prog.wp_perform]
  refine and_congr_right fun _ => ?_
  rw [Op.wp, Prog.wp_bind]
  constructor <;> refine fun hwp => Prog.wp_mono (fun r l' hr => ?_) hwp <;> cases r <;> exact hr

@[simp]
theorem wp_insert [OfConstraint ε] {row : AList Row → Row key} {Q : Bool → Local Row → Prop} :
    wp C (insert key row : Handler Row Req Resp ε Bool) l Q E ↔ C.resume l.saved ∧
      (∀ db, l.Sees C db → C.write l.readings .insert key none (row db) ∧
        (db.lookup key = none → Q true (l.put key (row db)))) ∧
        Q false l ∧ E (OfConstraint.ofConstraint .check) l := Iff.rfl

@[simp]
theorem wp_upsert [OfConstraint ε] {row : Row key} {update : Row key → Row key}
    {Q : Row key → Local Row → Prop} :
    wp C (upsert key row update : Handler Row Req Resp ε (Row key)) l Q E ↔ C.resume l.saved ∧
      C.write l.readings (.upsert false) key none row ∧
        (l.held key = none → Q row (l.put key row)) ∧
        (∀ old, l.MayFind C key old →
          C.write l.readings (.upsert (l.held key).isSome) key (some old) (update old) ∧
            Q (update old) (l.put key (update old))) ∧
        ∀ e, E (OfConstraint.ofConstraint e) l := Iff.rfl

@[simp]
theorem wp_lockIf {qualifies : Row key → Bool} {Q : Option (Row key) → Local Row → Prop} :
    wp C (lockIf key qualifies : Handler Row Req Resp ε _) l Q E ↔ C.resume l.saved ∧
      (l.held key = none → ¬ l.present key → Q none l) ∧
        ∀ row, l.MayFind C key row → Q ((some row).filter qualifies) (l.hold key row) := Iff.rfl

section Statements

variable [OfConstraint ε]

/-- An `UPDATE` by key misses the row, loses it to a change made before the lock, or writes. -/
theorem wp_updateRow {qualifies : Row key → Bool} {set : AList Row → Row key → Row key}
    {Q : Option (Row key) → Local Row → Prop} (hresume : C.resume l.saved)
    (hmiss : ∀ db, l.Sees C db → (∀ row, db.lookup key = some row → qualifies row = false) →
      Q none (l.seeing db))
    (hlost : ∀ db row, l.Sees C db → key ∈ db → l.MayFind C key row → qualifies row = false →
      Q none ((l.seeing db).hold key row))
    (hhit : ∀ db row, l.Sees C db → key ∈ db → l.MayFind C key row → qualifies row = true →
      C.write l.readings .update key (some row) (set db row) ∧
        Q (some (set db row)) ((l.seeing db).put key (set db row)) ∧
        ∀ e, E (OfConstraint.ofConstraint e) ((l.seeing db).hold key row)) :
    wp C (updateRow key qualifies set : Handler Row Req Resp ε _) l Q E := by
  unfold updateRow
  rw [wp_bind, wp_snapshot]
  refine ⟨hresume, fun db hsees => ?_⟩
  cases hfound : (db.lookup key).filter qualifies with
  | none =>
    refine hmiss db hsees fun row hrow => ?_
    simpa [hrow] using hfound
  | some found =>
    have hmem : key ∈ db := AList.lookup_isSome.mp (by
      cases hlookup : db.lookup key with
      | none => simp [hlookup] at hfound
      | some row => rfl)
    simp only [wp_bind, wp_lockIf, Local.seeing_saved]
    refine ⟨hresume, fun _ habsent => absurd (Or.inr hmem) habsent, fun row hfind => ?_⟩
    cases hqualifies : qualifies row with
    | false =>
      simp only [Option.filter, hqualifies]
      exact hlost db row hsees hmem hfind hqualifies
    | true =>
      obtain ⟨hwrite, hok, herror⟩ := hhit db row hsees hmem hfind hqualifies
      simp only [Option.filter, hqualifies]
      exact ⟨hresume, row, Local.hold_held_self .., hwrite, Local.put_hold (l := l.seeing db) _ ▸ hok,
        herror⟩

theorem wp_updateRow_held {qualifies : Row key → Bool} {set : AList Row → Row key → Row key}
    {Q : Option (Row key) → Local Row → Prop} (row : Row key) (hresume : C.resume l.saved)
    (hheld : l.held key = some row) (hqualifies : qualifies row = true)
    (hhit : ∀ db, l.Sees C db → C.write l.readings .update key (some row) (set db row) ∧
        Q (some (set db row)) ((l.seeing db).put key (set db row)) ∧
        ∀ e, E (OfConstraint.ofConstraint e) (l.seeing db)) :
    wp C (updateRow key qualifies set : Handler Row Req Resp ε _) l Q E := by
  refine wp_updateRow hresume (fun db hsees hnone => ?_) (fun db r _ _ hfind hlost => ?_)
    fun db r hsees _ hfind _ => ?_
  · simpa [hqualifies] using hnone row (hsees.held key row hheld)
  · obtain rfl := hfind.eq_of_held hheld
    simp [hqualifies] at hlost
  · obtain rfl := hfind.eq_of_held hheld
    rw [Local.hold_eq_self (l := l.seeing db) hheld]
    exact hhit db hsees

variable {qualifies : (key : Key) → Row key → Bool} {set : (key : Key) → Row key → Row key}
  {I : Local Row → Prop}

omit [OfConstraint ε] in
theorem exists_of_mem_matching {db : AList Row} (hmem : key ∈ matching db qualifies) :
    ∃ row, db.lookup key = some row ∧ qualifies key row = true := by
  have hany := (mem_filter.mp hmem).2
  cases hlookup : db.lookup key with
  | none => simp [hlookup] at hany
  | some row => exact ⟨row, rfl, by simpa [hlookup] using hany⟩

section Updates

variable {Q : Unit → Local Row → Prop} (hresume : ∀ l, I l → C.resume l.saved)
  (hrow : ∀ l key row, I l → (∃ seen, qualifies key seen = true) → l.MayFind C key row →
    I (l.hold key row) ∧ (qualifies key row = true →
      C.write l.readings .update key (some row) (set key row) ∧ I (l.put key (set key row))))
  (hQ : ∀ l, I l → Q () l) (hE : ∀ l e, I l → E (OfConstraint.ofConstraint e) l)

include hresume hrow hQ hE

theorem wp_updateEach (keys : List Key) :
    ∀ {l}, (∀ key ∈ keys, ∃ seen, qualifies key seen = true) → I l →
      wp C (updateEach qualifies set keys : Handler Row Req Resp ε Unit) l Q E := by
  induction keys with
  | nil => exact fun _ hI => hQ _ hI
  | cons key rest ih =>
    intro l hkeys hI
    have hrest : ∀ k ∈ rest, ∃ seen, qualifies k seen = true :=
      fun k hmem => hkeys k (mem_cons_of_mem _ hmem)
    simp only [updateEach, wp_bind, wp_lockIf]
    refine ⟨hresume l hI, fun _ _ => ih hrest hI, fun row hfind => ?_⟩
    obtain ⟨hhold, hwrite⟩ := hrow l key row hI (hkeys key mem_cons_self) hfind
    cases hqualifies : qualifies key row with
    | false =>
      simp only [Option.filter, hqualifies]
      exact ih hrest hhold
    | true =>
      obtain ⟨hallowed, hput⟩ := hwrite hqualifies
      simp only [Option.filter, hqualifies]
      refine ⟨hresume _ hhold, row, Local.hold_held_self .., hallowed, ?_, fun e => hE _ e hhold⟩
      rw [Local.put_hold]
      exact ih hrest hput

theorem wp_updateWhere (hsee : ∀ l db, I l → l.Sees C db → I (l.seeing db)) (hI : I l) :
    wp C (updateWhere qualifies set : Handler Row Req Resp ε Unit) l Q E := by
  refine ⟨hresume l hI, fun db hsees => ⟨hresume _ (hsee l db hI hsees), fun order hperm => ?_⟩⟩
  refine wp_updateEach hresume hrow hQ hE order (fun key hmem => ?_) (hsee l db hI hsees)
  obtain ⟨row, -, hqualifies⟩ := exists_of_mem_matching (hperm.mem_iff.mp hmem)
  exact ⟨row, hqualifies⟩

end Updates

section First

omit [OfConstraint ε]

variable {Q : Option (Σ key, Row key) → Local Row → Prop} (keys : List Key)
  (hresume : ∀ l, I l → C.resume l.saved)
  (hhold : ∀ l, ∀ key ∈ keys, ∀ row, I l → l.MayFind C key row → I (l.hold key row))
  (hnone : ∀ l, I l → Q none l)
  (hsome : ∀ l, ∀ key ∈ keys, ∀ row, I l → l.held key = some row → qualifies key row = true →
    Q (some ⟨key, row⟩) l)

include hresume hhold hnone hsome

theorem wp_firstLocked :
    ∀ {l}, I l → wp C (firstLocked qualifies keys : Handler Row Req Resp ε _) l Q E := by
  induction keys with
  | nil => exact fun hI => hnone _ hI
  | cons key rest ih =>
    intro l hI
    have hrest : ∀ {l}, I l → wp C (firstLocked qualifies rest : Handler Row Req Resp ε _) l Q E :=
      ih (fun l k hmem => hhold l k (mem_cons_of_mem _ hmem))
        fun l k hmem => hsome l k (mem_cons_of_mem _ hmem)
    simp only [firstLocked, wp_bind, wp_lockIf]
    refine ⟨hresume l hI, fun _ _ => hrest hI, fun row hfind => ?_⟩
    have hheld := hhold l key mem_cons_self row hI hfind
    cases hqualifies : qualifies key row with
    | false =>
      simp only [Option.filter, hqualifies]
      exact hrest hheld
    | true =>
      simp only [Option.filter, hqualifies]
      exact hsome _ key mem_cons_self row hheld (Local.hold_held_self ..) hqualifies

theorem wp_firstUnlocked :
    ∀ {l}, I l → wp C (firstUnlocked qualifies keys : Handler Row Req Resp ε _) l Q E := by
  induction keys with
  | nil => exact fun hI => hnone _ hI
  | cons key rest ih =>
    intro l hI
    have hrest : ∀ {l}, I l →
        wp C (firstUnlocked qualifies rest : Handler Row Req Resp ε _) l Q E :=
      ih (fun l k hmem => hhold l k (mem_cons_of_mem _ hmem))
        fun l k hmem => hsome l k (mem_cons_of_mem _ hmem)
    simp only [firstUnlocked, wp_bind, wp_skipLocked, Option.filter_none]
    refine ⟨hresume l hI, hrest hI, fun row hfind => ?_⟩
    have hheld := hhold l key mem_cons_self row hI hfind
    cases hqualifies : qualifies key row with
    | false =>
      simp only [Option.filter, hqualifies]
      exact hrest hheld
    | true =>
      simp only [Option.filter, hqualifies]
      exact hsome _ key mem_cons_self row hheld (Local.hold_held_self ..) hqualifies

end First

omit [OfConstraint ε] in
theorem wp_takeUnlocked {Q : List Key → Local Row → Prop} (keys : List Key)
    (hresume : ∀ saved, C.resume saved) :
    ∀ {l limit}, (∀ l ids, (∀ key ∈ ids, ∃ row, qualifies key row = true) → Q ids l) →
      wp C (takeUnlocked qualifies limit keys : Handler Row Req Resp ε _) l Q E := by
  induction keys generalizing Q with
  | nil => exact fun hQ => hQ _ [] (by simp)
  | cons key rest ih =>
    intro l limit hQ
    cases limit with
    | zero => exact hQ _ [] (by simp)
    | succ limit =>
      simp only [takeUnlocked, wp_bind, wp_skipLocked, Option.filter_none]
      refine ⟨hresume _, ih hQ, fun row hfind => ?_⟩
      cases hqualifies : qualifies key row with
      | false =>
        simp only [Option.filter, hqualifies]
        exact ih hQ
      | true =>
        simp only [Option.filter, hqualifies, if_true, wp_bind]
        refine ih fun l' ids hids => wp_pure.mpr (hQ l' _ ?_)
        intro k hk
        obtain rfl | hrest := mem_cons.mp hk
        · exact ⟨row, hqualifies⟩
        · exact hids k hrest

end Statements

-- from here on programs are only taken apart by the rules
attribute [irreducible] wp

end Handler

end ReadCommitted
