import ControlPlane.ReadCommitted.Frame

/-!
# Contracts for handlers

A contract says what a handler promises of every version it writes, given only what the rest of the
system promises of the rows it reads. `Prog.wp` tracks the rows the open transaction holds, the only
ones it can still rely on at its next statement. The soundness theorem is `exec_wp`.
-/

namespace ReadCommitted

open Function List

variable {Key : Type} [DecidableEq Key] {Row : Key → Type}
  {Index Req Resp Upstream Call α β : Type}

/-- How a statement comes to write a row. An upsert either held the row already or takes whatever
version it meets. -/
inductive Access where
  | update
  | insert
  | upsert (held : Bool)
deriving DecidableEq, Repr

structure Contract (Row : Key → Type) where
  /-- What every committed version of a row satisfies. -/
  rely : (key : Key) → Row key → Prop
  /-- The versions a statement may write: the clock readings the handler has made so far, how the
  statement gets at the row, the version it replaces (if any) and the new one. -/
  write : List Instant → Access → (key : Key) → Option (Row key) → Row key → Prop
  commit : AList Row → Prop
  /-- The committed write sets after which the handler may still do something. -/
  resume : AList Row → Prop

structure Local (Row : Key → Type) where
  readings : List Instant
  held : (key : Key) → Option (Row key)
  present : Key → Prop
  writes : AList Row
  saved : AList Row

namespace Local

def fresh : Local Row :=
  { readings := [], held := fun _ => none, present := fun _ => False, writes := ∅, saved := ∅ }

def ended (l : Local Row) (saved : AList Row) : Local Row :=
  { l with held := fun _ => none, present := fun _ => False, writes := ∅, saved := saved }

def seeing (l : Local Row) (db : AList Row) : Local Row :=
  { l with present := fun key => l.present key ∨ key ∈ db }

def reading (l : Local Row) (t : Instant) : Local Row := { l with readings := t :: l.readings }

def hold (l : Local Row) (key : Key) (row : Row key) : Local Row :=
  { l with held := update l.held key (some row) }

def put (l : Local Row) (key : Key) (row : Row key) : Local Row :=
  { l.hold key row with writes := l.writes.insert key row }

/-- A version of a row the handler may come across: the one it holds, or any the others promise. -/
def MayFind (l : Local Row) (C : Contract Row) (key : Key) (row : Row key) : Prop :=
  (∀ known, l.held key = some known → known = row) ∧ (l.held key = none → C.rely key row)

structure Sees (l : Local Row) (C : Contract Row) (db : AList Row) : Prop where
  held : ∀ key row, l.held key = some row → db.lookup key = some row
  present : ∀ key, l.present key → key ∈ db
  found : ∀ key row, db.lookup key = some row → l.MayFind C key row

end Local

def Op.wp (C : Contract Row) (l : Local Row) :
    (o : Op Row Req) → (o.Result Resp → Local Row → Prop) → Prop
  | .begin, Q => Q () l
  | .commit, Q => C.commit l.writes ∧ Q () (l.ended l.writes)
  | .rollback, Q => Q () (l.ended l.saved)
  | .utcNow, Q => ∀ t, Q t (l.reading t)
  | .sqlNow, Q => ∀ t, Q t l
  | .fresh, Q => ∀ n, Q n l
  | .snapshot, Q => ∀ db, l.Sees C db → Q db (l.seeing db)
  | .shuffle keys, Q => ∀ order, order.Perm keys → Q order l
  | .lock key, Q =>
    (l.held key = none → ¬ l.present key → Q none l) ∧
      ∀ row, l.MayFind C key row → Q (some row) (l.hold key row)
  | .skipLocked key, Q =>
    Q none l ∧ ∀ row, l.MayFind C key row → Q (some row) (l.hold key row)
  | .write key row, Q =>
    ∃ old, l.held key = some old ∧ C.write l.readings .update key (some old) row ∧
      Q (.ok ()) (l.put key row) ∧ ∀ e, Q (.error e) l
  | .insert key row, Q =>
    (∀ db, l.Sees C db → C.write l.readings .insert key none (row db) ∧
      (db.lookup key = none → Q (.ok true) (l.put key (row db)))) ∧
      Q (.ok false) l ∧ Q (.error .check) l
  | .upsert key row update, Q =>
    C.write l.readings (.upsert false) key none row ∧
      (l.held key = none → Q (.ok row) (l.put key row)) ∧
      (∀ old, l.MayFind C key old →
        C.write l.readings (.upsert (l.held key).isSome) key (some old) (update old) ∧
          Q (.ok (update old)) (l.put key (update old))) ∧
      ∀ e, Q (.error e) l
  | .request _, Q => ∀ answer, Q answer l

def Prog.wp (C : Contract Row) :
    Prog Row Req Resp α → Local Row → (α → Local Row → Prop) → Prop
  | .ret value, l, Q => Q value l
  | .op o next, l, Q => C.resume l.saved ∧ o.wp C l fun answer l' => (next answer).wp C l' Q

variable {C : Contract Row} {l : Local Row} {o : Op Row Req}

theorem Op.wp_mono {Q Q' : o.Result Resp → Local Row → Prop}
    (himp : ∀ answer l', Q answer l' → Q' answer l') (hwp : o.wp C l Q) : o.wp C l Q' := by
  cases o with
  | begin | rollback => exact himp _ _ hwp
  | commit => exact ⟨hwp.1, himp _ _ hwp.2⟩
  | utcNow | sqlNow | fresh | request => exact fun answer => himp _ _ (hwp answer)
  | snapshot => exact fun db hsees => himp _ _ (hwp db hsees)
  | shuffle => exact fun order hperm => himp _ _ (hwp order hperm)
  | lock =>
    exact ⟨fun hfree habsent => himp _ _ (hwp.1 hfree habsent),
      fun row hfind => himp _ _ (hwp.2 row hfind)⟩
  | skipLocked => exact ⟨himp _ _ hwp.1, fun row hfind => himp _ _ (hwp.2 row hfind)⟩
  | write =>
    obtain ⟨old, hheld, hwrite, hok, herror⟩ := hwp
    exact ⟨old, hheld, hwrite, himp _ _ hok, fun e => himp _ _ (herror e)⟩
  | insert =>
    obtain ⟨hins, hconflict, herror⟩ := hwp
    refine ⟨fun db hsees => ?_, himp _ _ hconflict, himp _ _ herror⟩
    obtain ⟨hwrite, hok⟩ := hins db hsees
    exact ⟨hwrite, fun hnone => himp _ _ (hok hnone)⟩
  | upsert =>
    obtain ⟨hproposed, hins, hupd, herror⟩ := hwp
    refine ⟨hproposed, fun hfree => himp _ _ (hins hfree), fun old hfind => ?_,
      fun e => himp _ _ (herror e)⟩
    obtain ⟨hwrite, hok⟩ := hupd old hfind
    exact ⟨hwrite, himp _ _ hok⟩

namespace Prog

variable {p : Prog Row Req Resp α}

theorem wp_mono :
    ∀ {l : Local Row} {Q Q' : α → Local Row → Prop}, (∀ value l', Q value l' → Q' value l') →
      p.wp C l Q → p.wp C l Q' := by
  induction p with
  | ret value => exact fun himp hwp => himp _ _ hwp
  | op o next ih =>
    exact fun himp hwp => ⟨hwp.1, Op.wp_mono (fun answer _ => ih answer himp) hwp.2⟩

theorem wp_bind {f : α → Prog Row Req Resp β} :
    ∀ {l : Local Row} {Q : β → Local Row → Prop},
      (p >>= f).wp C l Q ↔ p.wp C l fun value l' => (f value).wp C l' Q := by
  induction p with
  | ret value => exact Iff.rfl
  | op o next ih =>
    refine and_congr_right fun _ => ⟨?_, ?_⟩
    · exact Op.wp_mono fun answer l' => (ih answer).mp
    · exact Op.wp_mono fun answer l' => (ih answer).mpr

@[simp]
theorem wp_perform {Q : o.Result Resp → Local Row → Prop} :
    (perform o).wp C l Q ↔ C.resume l.saved ∧ o.wp C l Q := Iff.rfl

end Prog

structure Matches (sh : Shared Row Index Upstream) (sid : Nat) (tx : Txn Row) (l : Local Row) :
    Prop where
  readings : tx.readings = l.readings
  writes : tx.writes = l.writes
  saved : tx.saved = l.saved
  held : ∀ key row, l.held key = some row →
    sh.locks key = some sid ∧ (visible sh tx).lookup key = some row
  free : ∀ key, l.held key = none → sh.locks key ≠ some sid
  present : ∀ key, l.present key → key ∈ visible sh tx
  written : ∀ key row, l.writes.lookup key = some row → l.held key = some row

variable {S : Schema Row Index Req Resp Upstream} {sh sh' : Shared Row Index Upstream} {sid : Nat}
  {tx tx' : Txn Row} {key : Key} {row : Row key}

namespace Matches

theorem fresh (hlocks : ∀ key, sh.locks key ≠ some sid) :
    Matches sh sid .idle (.fresh : Local Row) where
  readings := rfl
  writes := rfl
  saved := rfl
  held _ _ h := by simp [Local.fresh] at h
  free key _ := hlocks key
  present _ h := h.elim
  written _ _ h := by simp [Local.fresh] at h

/-- A row that is not held has not been written, so what is visible of it is committed. -/
theorem lookup_of_free (hm : Matches sh sid tx l) (hfree : l.held key = none) :
    (visible sh tx).lookup key = sh.committed.lookup key := by
  have hnone : tx.writes.lookup key = none := by
    rw [hm.writes]
    cases hwritten : l.writes.lookup key with
    | none => rfl
    | some row => rw [hm.written key row hwritten] at hfree; simp at hfree
  rw [lookup_visible, hnone, Option.none_or]

theorem mayFind (hm : Matches sh sid tx l)
    (hrely : ∀ key row, sh.committed.lookup key = some row → C.rely key row)
    (hrow : (visible sh tx).lookup key = some row) : l.MayFind C key row := by
  refine ⟨fun known hknown => ?_, fun hfree => ?_⟩
  · rw [(hm.held key known hknown).2] at hrow
    exact Option.some.inj hrow
  · rw [hm.lookup_of_free hfree] at hrow
    exact hrely key row hrow

theorem sees (hm : Matches sh sid tx l)
    (hrely : ∀ key row, sh.committed.lookup key = some row → C.rely key row) :
    l.Sees C (visible sh tx) where
  held key row hheld := (hm.held key row hheld).2
  present := hm.present
  found _ _ hrow := hm.mayFind hrely hrow

theorem seeing (hm : Matches sh sid tx l) : Matches sh sid tx (l.seeing (visible sh tx)) where
  readings := hm.readings
  writes := hm.writes
  saved := hm.saved
  held := hm.held
  free := hm.free
  present key h := h.elim (hm.present key) id
  written := hm.written

theorem absent_of_lookup (hm : Matches sh sid tx l) (hnone : (visible sh tx).lookup key = none) :
    ¬ l.present key :=
  fun hpresent => AList.lookup_eq_none.mp hnone (hm.present key hpresent)

theorem free_of_lookup (hm : Matches sh sid tx l) (hnone : (visible sh tx).lookup key = none) :
    l.held key = none := by
  cases hheld : l.held key with
  | none => rfl
  | some row => rw [(hm.held key row hheld).2] at hnone; simp at hnone

theorem locked_iff (hm : Matches sh sid tx l) (key : Key) :
    sh.locks key = some sid ↔ (l.held key).isSome := by
  cases hheld : l.held key with
  | none => simpa using hm.free key hheld
  | some row => simpa using (hm.held key row hheld).1

theorem quiet (hm : Matches sh sid tx l) (hcommitted : sh'.committed = sh.committed)
    (hlocks : sh'.locks = sh.locks) (hwrites : tx'.writes = tx.writes)
    (hsaved : tx'.saved = tx.saved) (hreadings : tx'.readings = l.readings) :
    Matches sh' sid tx' l where
  readings := hreadings
  writes := hwrites.trans hm.writes
  saved := hsaved.trans hm.saved
  held key row h := by
    rw [hlocks, lookup_visible, hwrites, hcommitted, ← lookup_visible]
    exact hm.held key row h
  free key h := by rw [hlocks]; exact hm.free key h
  present key h := by
    have hmem := hm.present key h
    rw [visible] at hmem ⊢
    rwa [hwrites, hcommitted]
  written := hm.written

theorem lock (hm : Matches sh sid tx l) (hrow : (visible sh tx).lookup key = some row) :
    Matches { sh with locks := update sh.locks key (some sid) } sid tx
      (l.hold key row) where
  readings := hm.readings
  writes := hm.writes
  saved := hm.saved
  held k r h := by
    by_cases heq : k = key
    · subst heq
      simp only [Local.hold, update_self, Option.some.injEq] at h
      subst h
      exact ⟨update_self .., hrow⟩
    · simp only [Local.hold, update_of_ne heq] at h
      obtain ⟨hlock, hvisible⟩ := hm.held k r h
      exact ⟨by simpa [update_of_ne heq] using hlock, hvisible⟩
  free k h := by
    have hne : k ≠ key := by
      rintro rfl
      simp [Local.hold] at h
    simp only [Local.hold, update_of_ne hne] at h ⊢
    exact hm.free k h
  present := hm.present
  written k r h := by
    have hheld := hm.written k r h
    by_cases heq : k = key
    · subst heq
      have hknown := (hm.held k r hheld).2
      rw [hrow] at hknown
      simpa [Local.hold] using hknown
    · simpa [Local.hold, update_of_ne heq] using hheld

theorem ended (hm : Matches sh sid tx l) {db saved : AList Row} :
    Matches (settle sid sh db) sid { tx with writes := ∅, saved := saved } (l.ended saved) where
  readings := hm.readings
  writes := rfl
  saved := rfl
  held _ _ h := by simp [Local.ended] at h
  free key _ := by
    intro hlock
    exact (release_eq_some_iff.mp hlock).2 rfl
  present _ h := h.elim
  written _ _ h := by simp [Local.ended] at h

section Constraints

variable [DecidableEq Index]

theorem place (hm : Matches sh sid tx l) (key : Key) (old : Option (Row key)) (row : Row key) :
    Matches (ReadCommitted.place S sid sh tx key old row).1 sid
      (ReadCommitted.place S sid sh tx key old row).2 (l.put key row) where
  readings := hm.readings
  writes := by simp [ReadCommitted.place, Local.put, hm.writes]
  saved := hm.saved
  held k r h := by
    by_cases heq : k = key
    · subst heq
      simp only [Local.put, Local.hold, update_self, Option.some.injEq] at h
      subst h
      exact ⟨update_self .., by simp [ReadCommitted.place]⟩
    · simp only [Local.put, Local.hold, update_of_ne heq] at h
      obtain ⟨hlock, hvisible⟩ := hm.held k r h
      refine ⟨by simpa [ReadCommitted.place, update_of_ne heq] using hlock, ?_⟩
      simpa [ReadCommitted.place, AList.lookup_insert_ne heq] using hvisible
  free k h := by
    have hne : k ≠ key := by
      rintro rfl
      simp [Local.put, Local.hold] at h
    simp only [Local.put, Local.hold, update_of_ne hne] at h
    simpa [ReadCommitted.place, update_of_ne hne] using hm.free k h
  present k h := by
    refine AList.mem_union.mpr ((AList.mem_union.mp (hm.present k h)).imp_left fun hmem => ?_)
    exact AList.mem_insert _ |>.mpr (Or.inr hmem)
  written k r h := by
    by_cases heq : k = key
    · subst heq
      simpa [Local.put, Local.hold] using h
    · simp only [Local.put, AList.lookup_insert_ne heq] at h
      simpa [Local.put, Local.hold, update_of_ne heq] using hm.written k r h

end Constraints

theorem frame (hm : Matches sh sid tx l) {other : Nat} (hne : sid ≠ other)
    (hframe : Framed other sh sh') : Matches sh' sid tx l where
  readings := hm.readings
  writes := hm.writes
  saved := hm.saved
  held key row h := by
    obtain ⟨hlock, hvisible⟩ := hm.held key row h
    refine ⟨(hframe.locks sid hne key).mpr hlock, ?_⟩
    rw [lookup_visible] at hvisible ⊢
    rwa [hframe.committed sid hne key hlock]
  free key h := fun hlock => hm.free key h ((hframe.locks sid hne key).mp hlock)
  present key h :=
    AList.mem_union.mpr ((AList.mem_union.mp (hm.present key h)).imp_right (hframe.keys key))
  written := hm.written

end Matches

section Soundness

variable [DecidableEq Index] {choice : Choice Key}

/-- How the statement stood to the row when it wrote it. -/
def Access.Fits (locked : Bool) {key : Key} (old : Option (Row key)) : Access → Prop
  | .update => locked = true ∧ old ≠ none
  | .insert => old = none
  | .upsert held => held = locked

def Op.target : Op Row Req → Option Key
  | .write key _ | .insert key _ | .upsert key _ _ => some key
  | _ => none

/-- Everything one operation of a conforming session can do to the rows. -/
inductive Effect (S : Schema Row Index Req Resp Upstream) (C : Contract Row) (sid : Nat)
    (o : Op Row Req) (sh : Shared Row Index Upstream) (tx : Txn Row) :
    Shared Row Index Upstream → Txn Row → Prop
  | quiet {sh' : Shared Row Index Upstream} {tx' : Txn Row}
      (hcommitted : sh'.committed = sh.committed) (hreserved : sh'.reserved = sh.reserved)
      (hwrites : tx'.writes = tx.writes) (hsaved : tx'.saved = tx.saved)
      (hrefused : tx'.refused = tx.refused) (hreadings : tx.readings <:+ tx'.readings) :
      Effect S C sid o sh tx sh' tx'
  | placed {sh' : Shared Row Index Upstream} {tx' : Txn Row} (access : Access) (key : Key)
      (row : Row key) (htarget : o.target = some key)
      (hfits : access.Fits (sh.locks key = some sid) ((visible sh tx).lookup key))
      (hwrite : C.write tx.readings access key ((visible sh tx).lookup key) row)
      (havailable : available (sh.locks key) sid = true)
      (hverdict : verdict S sid sh tx key ((visible sh tx).lookup key) row = .accept)
      (hplace : place S sid sh tx key ((visible sh tx).lookup key) row = (sh', tx')) :
      Effect S C sid o sh tx sh' tx'
  | refused (access : Access) (key : Key) (old : Option (Row key)) (row : Row key)
      (e : ConstraintError) (htarget : o.target = some key)
      (hold : old = none ∨ old = (visible sh tx).lookup key)
      (hwrite : C.write tx.readings access key old row)
      (hverdict : verdict S sid sh tx key old row = .refuse e)
      (hinsert : access = .insert → e = .check) :
      Effect S C sid o sh tx sh (refuse tx key)
  | committed (hop : o = .commit) (hcommit : C.commit tx.writes) :
      Effect S C sid o sh tx (settle sid sh (visible sh tx))
        { tx with writes := ∅, saved := tx.writes }
  | aborted : Effect S C sid o sh tx (settle sid sh sh.committed) { tx with writes := ∅ }

theorem verdict_of_check_false {old : Option (Row key)}
    (hcheck : ¬ S.check key row = true) : verdict S sid sh tx key old row = .refuse .check := by
  simp [verdict, hcheck]

omit [DecidableEq Index] in
theorem Matches.upserts {next : Row key → Row key}
    {Q : (Op.upsert key row next : Op Row Req).Result Resp → Local Row → Prop}
    (hm : Matches sh sid tx l)
    (hrely : ∀ key row, sh.committed.lookup key = some row → C.rely key row)
    (hwp : Op.wp C l (.upsert key row next) Q) :
    C.write tx.readings (.upsert (sh.locks key = some sid)) key ((visible sh tx).lookup key)
        (((visible sh tx).lookup key).elim row next) ∧
      Q (.ok (((visible sh tx).lookup key).elim row next))
        (l.put key (((visible sh tx).lookup key).elim row next)) := by
  obtain ⟨hproposed, hins, hupd, -⟩ := hwp
  have hflag : decide (sh.locks key = some sid) = (l.held key).isSome := by
    rw [Bool.eq_iff_iff, decide_eq_true_iff]
    exact hm.locked_iff key
  rw [hflag, hm.readings]
  cases hold : (visible sh tx).lookup key with
  | none =>
    have hfree := hm.free_of_lookup hold
    rw [hfree]
    exact ⟨hproposed, hins hfree⟩
  | some old => exact hupd old (hm.mayFind hrely hold)

/-- **One operation of a conforming session.** Whatever the other sessions have committed, as long
as it is what the contract relies on, the answer is one the program was proved for. -/
theorem exec_wp {o : Op Row Req} {answer : o.Result Resp}
    {Q : o.Result Resp → Local Row → Prop} (hm : Matches sh sid tx l)
    (hrely : ∀ key row, sh.committed.lookup key = some row → C.rely key row)
    (hwp : o.wp C l Q) (hexec : o.exec S sid choice sh tx = some (answer, sh', tx')) :
    Effect S C sid o sh tx sh' tx' ∧ ∃ l', Matches sh' sid tx' l' ∧ Q answer l' := by
  have hreadings := hm.readings
  cases Op.did hexec with
  | begin =>
    exact ⟨.quiet rfl rfl rfl rfl rfl suffix_rfl, l, hm.quiet rfl rfl rfl rfl hreadings, hwp⟩
  | utcNow =>
    refine ⟨.quiet rfl rfl rfl rfl rfl (suffix_cons _ _), _, ?_, hwp _⟩
    exact ⟨by simp [Local.reading, hreadings], hm.writes, hm.saved, hm.held, hm.free, hm.present, hm.written⟩
  | sqlNow | fresh | request =>
    exact ⟨.quiet rfl rfl rfl rfl rfl suffix_rfl, l, hm.quiet rfl rfl rfl rfl hreadings, hwp _⟩
  | snapshot =>
    exact ⟨.quiet rfl rfl rfl rfl rfl suffix_rfl, _, hm.seeing, hwp _ (hm.sees hrely)⟩
  | commit =>
    refine ⟨.committed rfl (hm.writes ▸ hwp.1), _, hm.ended, ?_⟩
    rw [hm.writes]
    exact hwp.2
  | rollback =>
    refine ⟨.aborted, l.ended l.saved, ?_, hwp⟩
    rw [← hm.saved]
    exact hm.ended
  | shuffle hperm => exact ⟨.quiet rfl rfl rfl rfl rfl suffix_rfl, l, hm, hwp _ hperm⟩
  | lockNone hnone =>
    exact ⟨.quiet rfl rfl rfl rfl rfl suffix_rfl, l, hm,
      hwp.1 (hm.free_of_lookup hnone) (hm.absent_of_lookup hnone)⟩
  | lock hrow | take hrow =>
    exact ⟨.quiet rfl rfl rfl rfl rfl suffix_rfl, _, hm.lock hrow,
      hwp.2 _ (hm.mayFind hrely hrow)⟩
  | skip => exact ⟨.quiet rfl rfl rfl rfl rfl suffix_rfl, l, hm, hwp.1⟩
  | @write key row hlock hverdict =>
    obtain ⟨old, hheld, hwrite, hok, -⟩ := hwp
    have hold := (hm.held key old hheld).2
    rw [← hreadings, ← hold] at hwrite
    refine ⟨.placed .update key row rfl ?_ hwrite (available_of_locked hlock) hverdict rfl, _,
      hm.place key _ row, hok⟩
    exact ⟨by simpa using hlock, by simp [hold]⟩
  | @writeError key row e hverdict =>
    obtain ⟨old, hheld, hwrite, -, herror⟩ := hwp
    rw [← hreadings, ← (hm.held key old hheld).2] at hwrite
    exact ⟨.refused .update key _ row e rfl (Or.inr rfl) hwrite hverdict (by simp), l,
      hm.quiet rfl rfl rfl rfl hreadings, herror e⟩
  | @insert key row hverdict hmem havailable =>
    obtain ⟨hwrite, hok⟩ := hwp.1 _ (hm.sees hrely)
    have hnone : (visible sh tx).lookup key = none := AList.lookup_eq_none.mpr hmem
    have hmatch := hm.place (S := S) key none (row (visible sh tx))
    rw [← hreadings, ← hnone] at hwrite
    rw [← hnone] at hverdict hmatch ⊢
    exact ⟨.placed .insert key _ rfl hnone hwrite havailable hverdict rfl, _, hmatch, hok hnone⟩
  | conflict => exact ⟨.quiet rfl rfl rfl rfl rfl suffix_rfl, l, hm, hwp.2.1⟩
  | @insertError key row hverdict =>
    have hwrite := (hwp.1 _ (hm.sees hrely)).1
    rw [← hreadings] at hwrite
    exact ⟨.refused .insert key none _ .check rfl (Or.inl rfl) hwrite hverdict (by simp), l,
      hm.quiet rfl rfl rfl rfl hreadings, hwp.2.2⟩
  | @upsert key row next old new hold hnew havailable _ hverdict =>
    subst hold hnew
    obtain ⟨hwrite, hok⟩ := hm.upserts hrely hwp
    exact ⟨.placed (.upsert _) key _ rfl rfl hwrite havailable hverdict rfl, _, hm.place key _ _, hok⟩
  | @unchecked key row _ hcheck =>
    exact ⟨.refused (.upsert false) key none row .check rfl (Or.inl rfl) (hreadings ▸ hwp.1)
      (verdict_of_check_false (by simp [hcheck])) (by simp), l,
      hm.quiet rfl rfl rfl rfl hreadings, hwp.2.2.2 _⟩
  | @upsertError key row _ e hverdict =>
    exact ⟨.refused (.upsert _) key _ _ e rfl (Or.inr rfl) (hm.upserts hrely hwp).1 hverdict
      (by simp), l, hm.quiet rfl rfl rfl rfl hreadings, hwp.2.2.2 e⟩

end Soundness

end ReadCommitted
