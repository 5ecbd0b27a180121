import ControlPlane.ReadCommitted.Protocol
import ControlPlane.ReadCommitted.Rules

/-!
# Calls served one at a time

`Prog.serial` says what has to hold before a call that runs while no other session holds anything.
Clocks, the order of unordered statements and lost answers stay as the schedule has them. Such a
call is never stuck.
-/

namespace ReadCommitted

open Function Option

variable {Key : Type} [DecidableEq Key] {Row : Key → Type}
  {Index Req Resp Upstream Call ε α β : Type}

/-- What a session that runs alone has before it. -/
structure View (Row : Key → Type) (Upstream : Type) where
  committed : AList Row
  writes : AList Row
  upstream : Upstream
  engaged : Bool
  /-- Identifiers from here on have not been given out. -/
  issued : Nat

namespace View

def seen (v : View Row Upstream) : AList Row := v.writes ∪ v.committed

def engage (v : View Row Upstream) : View Row Upstream := { v with engaged := true }

def put (v : View Row Upstream) (key : Key) (row : Row key) : View Row Upstream :=
  { v with writes := v.writes.insert key row, engaged := true }

def settled (v : View Row Upstream) (db : AList Row) : View Row Upstream :=
  { v with committed := db, writes := ∅, engaged := false }

def between (db : AList Row) (upstream : Upstream) (issued : Nat := 0) : View Row Upstream :=
  { committed := db, writes := ∅, upstream := upstream, engaged := false, issued := issued }

/-- What the constraints say of a new version while nobody else is at work. -/
def verdict [DecidableEq Index] (S : Schema Row Index Req Resp Upstream) (v : View Row Upstream)
    (key : Key) (old : Option (Row key)) (row : Row key) : Verdict :=
  if S.check key row then
    match S.index key row with
    | none => .accept
    | some i =>
      if old.bind (S.index key) = some i then .accept
      else if occupied S v.committed key i ∨ occupied S v.writes key i then .refuse .unique
      else .accept
  else .refuse .check

end View

/-- The ways a request to the service can go. -/
def Served (S : Schema Row Index Req Resp Upstream) (req : Req) (upstream : Upstream)
    (answer : Resp) (upstream' : Upstream) : Prop :=
  (answer, upstream') = S.serve req upstream ∨
    answer = S.unanswered ∧ (upstream' = (S.serve req upstream).2 ∨ upstream' = upstream)

def Op.serial [DecidableEq Index] (S : Schema Row Index Req Resp Upstream) (v : View Row Upstream) :
    (o : Op Row Req) → (o.Result Resp → View Row Upstream → Prop) → Prop
  | .begin, Q => Q () v
  | .commit, Q => Q () (v.settled v.seen)
  | .rollback, Q => Q () (v.settled v.committed)
  | .utcNow, Q => ∀ t, Q t v
  | .sqlNow, Q => ∀ t, Q t v
  | .fresh, Q => ∀ n, v.issued ≤ n → Q n v
  | .snapshot, Q => Q v.seen v
  | .shuffle keys, Q => ∀ order, order.Perm keys → Q order v
  | .lock key, Q => Q (v.seen.lookup key) v.engage
  | .skipLocked key, Q => Q (v.seen.lookup key) v.engage
  | .write key row, Q =>
    (v.verdict S key (v.seen.lookup key) row = .accept → Q (.ok ()) (v.put key row)) ∧
      ∀ e, v.verdict S key (v.seen.lookup key) row = .refuse e → Q (.error e) v
  | .insert key row, Q =>
    (v.verdict S key none (row v.seen) = .accept → key ∉ v.seen →
      Q (.ok true) (v.put key (row v.seen))) ∧
      (v.verdict S key none (row v.seen) = .refuse .unique ∨ key ∈ v.seen → Q (.ok false) v) ∧
      (v.verdict S key none (row v.seen) = .refuse .check → Q (.error .check) v)
  | .upsert key row update, Q =>
    let new := (v.seen.lookup key).elim row update
    (S.check key row = true → v.verdict S key (v.seen.lookup key) new = .accept →
      Q (.ok new) (v.put key new)) ∧
      (∀ e, v.verdict S key (v.seen.lookup key) new = .refuse e → Q (.error e) v) ∧
      (S.check key row = false → Q (.error .check) v)
  | .request req, Q =>
    ∀ answer upstream', Served S req v.upstream answer upstream' →
      Q answer { v with upstream := upstream' }

def Prog.serial [DecidableEq Index] (S : Schema Row Index Req Resp Upstream) :
    Prog Row Req Resp α → View Row Upstream → (α → View Row Upstream → Prop) → Prop
  | .ret value, v, Q => Q value v
  | .op o next, v, Q => o.serial S v fun answer v' => (next answer).serial S v' Q

structure Unhindered (sh : Shared Row Index Upstream) (sid : Nat) : Prop where
  locks : ∀ key, available (sh.locks key) sid = true
  reserved : ∀ i, available (sh.reserved i) sid = true

structure Quiescent (sh : Shared Row Index Upstream) : Prop where
  locks : ∀ key, sh.locks key = none
  reserved : ∀ i, sh.reserved i = none

/-- The database agrees with the view of the session, which is alone. -/
structure Agrees (sh : Shared Row Index Upstream) (sid : Nat) (tx : Txn Row)
    (v : View Row Upstream) : Prop extends Unhindered sh sid where
  committed : sh.committed = v.committed
  writes : tx.writes = v.writes
  upstream : sh.upstream = v.upstream
  issued : v.issued ≤ sh.nextId
  rested : v.engaged = false → Quiescent sh

theorem release_eq_none {ι : Type} {table : ι → Option Nat} {sid : Nat}
    (htable : ∀ i, available (table i) sid = true) (i : ι) : release table sid i = none := by
  unfold release
  split_ifs with howner
  · rfl
  · simpa [available, howner] using htable i

theorem available_update {ι : Type} [DecidableEq ι] {table : ι → Option Nat} {sid : Nat}
    (htable : ∀ i, available (table i) sid = true) (i j : ι) :
    available (update table i (some sid) j) sid = true := by
  by_cases heq : j = i
  · subst heq
    simp [available]
  · simpa [update_of_ne heq] using htable j

variable {S : Schema Row Index Req Resp Upstream} {sh sh' : Shared Row Index Upstream} {sid : Nat}
  {tx tx' : Txn Row} {v : View Row Upstream}

namespace Agrees

theorem seen (ha : Agrees sh sid tx v) : visible sh tx = v.seen := by
  rw [visible, View.seen, ha.writes, ha.committed]

omit [DecidableEq Key] in
theorem quiet (ha : Agrees sh sid tx v)
    (hcommitted : sh'.committed = sh.committed) (hupstream : sh'.upstream = sh.upstream)
    (hlocks : sh'.locks = sh.locks) (hreserved : sh'.reserved = sh.reserved)
    (hwrites : tx'.writes = tx.writes) (hissued : sh.nextId ≤ sh'.nextId) :
    Agrees sh' sid tx' v where
  committed := hcommitted.trans ha.committed
  writes := hwrites.trans ha.writes
  upstream := hupstream.trans ha.upstream
  issued := Nat.le_trans ha.issued hissued
  locks := by rw [hlocks]; exact ha.locks
  reserved := by rw [hreserved]; exact ha.reserved
  rested h := ⟨by rw [hlocks]; exact (ha.rested h).locks,
    by rw [hreserved]; exact (ha.rested h).reserved⟩

theorem lock (ha : Agrees sh sid tx v) (key : Key) :
    Agrees { sh with locks := update sh.locks key (some sid) } sid tx v.engage where
  committed := ha.committed
  writes := ha.writes
  upstream := ha.upstream
  issued := ha.issued
  locks := available_update ha.locks key
  reserved := ha.reserved
  rested h := by simp [View.engage] at h

omit [DecidableEq Key] in
theorem engage (ha : Agrees sh sid tx v) : Agrees sh sid tx v.engage :=
  ⟨ha.toUnhindered, ha.committed, ha.writes, ha.upstream, ha.issued,
    fun h => by simp [View.engage] at h⟩

omit [DecidableEq Key] in
theorem settled (ha : Agrees sh sid tx v) (db saved : AList Row) :
    Agrees (settle sid sh db) sid { tx with writes := ∅, saved := saved } (v.settled db) := by
  have hlocks := release_eq_none ha.locks
  have hreserved := release_eq_none ha.reserved
  exact ⟨⟨fun key => by simp [settle, hlocks, available],
    fun i => by simp [settle, hreserved, available]⟩, rfl, rfl, ha.upstream, ha.issued,
    fun _ => ⟨hlocks, hreserved⟩⟩

variable [DecidableEq Index]

theorem available_reserve {table : Index → Option Nat} (o : Option Index)
    (htable : ∀ i, available (table i) sid = true) (i : Index) :
    available (reserve table sid o i) sid = true := by
  cases o with
  | none => exact htable i
  | some j => exact available_update htable j i

theorem place (ha : Agrees sh sid tx v) (key : Key) (old : Option (Row key)) (row : Row key) :
    Agrees (ReadCommitted.place S sid sh tx key old row).1 sid
      (ReadCommitted.place S sid sh tx key old row).2 (v.put key row) where
  committed := ha.committed
  writes := by simp [ReadCommitted.place, View.put, ha.writes]
  upstream := ha.upstream
  issued := ha.issued
  locks := available_update ha.locks key
  reserved i := available_reserve _ (available_reserve _ ha.reserved) i
  rested h := by simp [View.put] at h

theorem verdict (ha : Agrees sh sid tx v) (key : Key) (old : Option (Row key))
    (row : Row key) : ReadCommitted.verdict S sid sh tx key old row = v.verdict S key old row := by
  have hreserved := ha.reserved
  simp only [ReadCommitted.verdict, View.verdict]
  cases S.index key row with
  | none => rfl
  | some i => simp only [hreserved, ha.committed, ha.writes, if_true]

end Agrees

section Soundness

variable [DecidableEq Index] {choice : Choice Key} {key : Key} {old : Option (Row key)}
  {row : Row key} {d : Verdict}

theorem check_of_verdict (hverdict : verdict S sid sh tx key old row = d) (hd : d ≠ .refuse .check) :
    S.check key row = true := by
  by_contra hcheck
  exact hd ((verdict_of_check_false hcheck).symm.trans hverdict).symm

theorem index_of_verdict (hverdict : verdict S sid sh tx key old row = d) (hd : d ≠ .refuse .check)
    (haccept : d ≠ .accept) : (S.index key row).isSome = true := by
  cases hindex : S.index key row with
  | some i => rfl
  | none => simp [verdict, hindex, check_of_verdict hverdict hd] at hverdict; exact absurd hverdict.symm haccept

theorem exec_serial {o : Op Row Req} {answer : o.Result Resp}
    {Q : o.Result Resp → View Row Upstream → Prop} (ha : Agrees sh sid tx v)
    (hserial : o.serial S v Q) (hexec : o.exec S sid choice sh tx = some (answer, sh', tx')) :
    ∃ v', Agrees sh' sid tx' v' ∧ Q answer v' := by
  have hseen := ha.seen
  cases Op.did hexec with
  | begin => exact ⟨v, ha.quiet rfl rfl rfl rfl rfl le_rfl, hserial⟩
  | utcNow | sqlNow => exact ⟨v, ha.quiet rfl rfl rfl rfl rfl le_rfl, hserial _⟩
  | fresh => exact ⟨v, ha.quiet rfl rfl rfl rfl rfl (Nat.le_succ _), hserial _ ha.issued⟩
  | snapshot => exact ⟨v, ha, hseen ▸ hserial⟩
  | commit => exact ⟨_, hseen ▸ ha.settled _ _, hserial⟩
  | rollback => exact ⟨_, ha.committed ▸ ha.settled _ tx.saved, hserial⟩
  | shuffle hperm => exact ⟨v, ha, hserial _ hperm⟩
  | lockNone hnone =>
    rw [hseen] at hnone
    exact ⟨_, ha.engage, hnone ▸ hserial⟩
  | lock hrow | take hrow =>
    rw [hseen] at hrow
    exact ⟨_, ha.lock _, hrow ▸ hserial⟩
  | skip hskip =>
    have hnone := hskip (ha.locks _)
    rw [hseen] at hnone
    exact ⟨_, ha.engage, hnone ▸ hserial⟩
  | write _ hverdict =>
    rw [ha.verdict, hseen] at hverdict
    exact ⟨_, ha.place _ _ _, hserial.1 hverdict⟩
  | writeError hverdict =>
    rw [ha.verdict, hseen] at hverdict
    exact ⟨v, ha.quiet rfl rfl rfl rfl rfl le_rfl, hserial.2 _ hverdict⟩
  | insert hverdict hmem =>
    rw [ha.verdict] at hverdict
    rw [hseen] at hverdict hmem ⊢
    exact ⟨_, ha.place _ _ _, hserial.1 hverdict hmem⟩
  | conflict hconflict =>
    rw [ha.verdict, hseen] at hconflict
    exact ⟨v, ha, hserial.2.1 hconflict⟩
  | insertError hverdict =>
    rw [ha.verdict, hseen] at hverdict
    exact ⟨v, ha.quiet rfl rfl rfl rfl rfl le_rfl, hserial.2.2 hverdict⟩
  | upsert hold hnew _ hcheck hverdict =>
    rw [ha.verdict] at hverdict
    subst hold hnew
    rw [hseen] at hverdict ⊢
    exact ⟨_, ha.place _ _ _, hserial.1 hcheck hverdict⟩
  | unchecked hcheck =>
    exact ⟨v, ha.quiet rfl rfl rfl rfl rfl le_rfl, hserial.2.2 hcheck⟩
  | upsertError hverdict =>
    rw [ha.verdict, hseen] at hverdict
    exact ⟨v, ha.quiet rfl rfl rfl rfl rfl le_rfl, hserial.2.1 _ hverdict⟩
  | request hserved =>
    rw [ha.upstream] at hserved
    refine ⟨{ v with upstream := _ }, ?_, hserial _ _ hserved⟩
    exact ⟨⟨ha.locks, ha.reserved⟩, ha.committed, ha.writes, rfl, ha.issued,
      fun h => ⟨(ha.rested h).locks, (ha.rested h).reserved⟩⟩

end Soundness

section Programs

variable [DecidableEq Index] {o : Op Row Req} {Q Q' : o.Result Resp → View Row Upstream → Prop}

theorem Op.serial_and (h : o.serial S v Q) (h' : o.serial S v Q') :
    o.serial S v fun answer v' => Q answer v' ∧ Q' answer v' := by
  cases o with
  | begin | commit | rollback | snapshot | lock | skipLocked => exact ⟨h, h'⟩
  | utcNow | sqlNow => exact fun t => ⟨h t, h' t⟩
  | fresh => exact fun n hn => ⟨h n hn, h' n hn⟩
  | shuffle => exact fun order hperm => ⟨h order hperm, h' order hperm⟩
  | write => exact ⟨fun hv => ⟨h.1 hv, h'.1 hv⟩, fun e hv => ⟨h.2 e hv, h'.2 e hv⟩⟩
  | upsert =>
    exact ⟨fun hcheck hv => ⟨h.1 hcheck hv, h'.1 hcheck hv⟩,
      fun e hv => ⟨h.2.1 e hv, h'.2.1 e hv⟩, fun hcheck => ⟨h.2.2 hcheck, h'.2.2 hcheck⟩⟩
  | insert =>
    exact ⟨fun hv hmem => ⟨h.1 hv hmem, h'.1 hv hmem⟩,
      fun hconflict => ⟨h.2.1 hconflict, h'.2.1 hconflict⟩, fun hv => ⟨h.2.2 hv, h'.2.2 hv⟩⟩
  | request => exact fun answer up hserved => ⟨h answer up hserved, h' answer up hserved⟩

theorem Op.serial_mono (himp : ∀ answer v', Q answer v' → Q' answer v') (h : o.serial S v Q) :
    o.serial S v Q' := by
  cases o with
  | begin | commit | rollback | snapshot | lock | skipLocked => exact himp _ _ h
  | utcNow | sqlNow => exact fun t => himp _ _ (h t)
  | fresh => exact fun n hn => himp _ _ (h n hn)
  | shuffle => exact fun order hperm => himp _ _ (h order hperm)
  | write => exact ⟨fun hv => himp _ _ (h.1 hv), fun e hv => himp _ _ (h.2 e hv)⟩
  | upsert =>
    exact ⟨fun hcheck hv => himp _ _ (h.1 hcheck hv), fun e hv => himp _ _ (h.2.1 e hv),
      fun hcheck => himp _ _ (h.2.2 hcheck)⟩
  | insert =>
    exact ⟨fun hv hmem => himp _ _ (h.1 hv hmem), fun hconflict => himp _ _ (h.2.1 hconflict),
      fun hv => himp _ _ (h.2.2 hv)⟩
  | request => exact fun answer up hserved => himp _ _ (h answer up hserved)

theorem Op.serial_of_forall (h : ∀ answer v', Q answer v') : o.serial S v Q := by
  cases o with
  | begin | commit | rollback | snapshot | lock | skipLocked => exact h _ _
  | utcNow | sqlNow => exact fun _ => h _ _
  | fresh | shuffle => exact fun _ _ => h _ _
  | write => exact ⟨fun _ => h _ _, fun _ _ => h _ _⟩
  | upsert => exact ⟨fun _ _ => h _ _, fun _ _ => h _ _, fun _ => h _ _⟩
  | insert => exact ⟨fun _ _ => h _ _, fun _ => h _ _, fun _ => h _ _⟩
  | request => exact fun _ _ _ => h _ _

namespace Prog

variable {Q : α → View Row Upstream → Prop} {p : Prog Row Req Resp α}

theorem serial_mono :
    ∀ {v : View Row Upstream} {Q Q' : α → View Row Upstream → Prop},
      (∀ value v', Q value v' → Q' value v') → p.serial S v Q → p.serial S v Q' := by
  induction p with
  | ret value => exact fun himp h => himp _ _ h
  | op o next ih => exact fun himp h => Op.serial_mono (fun answer _ => ih answer himp) h

theorem serial_and :
    ∀ {v : View Row Upstream} {Q Q' : α → View Row Upstream → Prop},
      p.serial S v Q → p.serial S v Q' → p.serial S v fun value v' => Q value v' ∧ Q' value v' := by
  induction p with
  | ret value => exact fun h h' => ⟨h, h'⟩
  | op o next ih =>
    exact fun h h' => Op.serial_mono (fun answer _ hboth => ih answer hboth.1 hboth.2)
      (Op.serial_and h h')

theorem serial_of_forall (h : ∀ value v', Q value v') :
    ∀ {v : View Row Upstream}, p.serial S v Q := by
  induction p with
  | ret value => exact h _ _
  | op o next ih => exact Op.serial_of_forall fun answer _ => ih answer

theorem serial_bind {f : α → Prog Row Req Resp β} :
    ∀ {v : View Row Upstream} {Q : β → View Row Upstream → Prop},
      (p >>= f).serial S v Q ↔ p.serial S v fun value v' => (f value).serial S v' Q := by
  induction p with
  | ret value => exact Iff.rfl
  | op o next ih =>
    intro v Q
    constructor
    · exact Op.serial_mono fun answer v' => (ih answer).mp
    · exact Op.serial_mono fun answer v' => (ih answer).mpr

end Prog

end Programs

def onlyBy (sid : Nat) (_ : Sys Row Index Req Resp Upstream Call α) : Action Key Call → Prop
  | .run other _ => other = sid
  | .tick _ => True
  | .start _ _ | .crash _ => False

def alone (sid : Nat) (call : Call) (steps : Nat) : List (Action Key Call) :=
  .start sid call :: List.replicate steps (.run sid ⟨[], .answered⟩)

def Sys.returned (s : Sys Row Index Req Resp Upstream Call α) (sid : Nat) : Option α :=
  match s.sessions sid with
  | some ⟨_, some (.ret answer), _⟩ => some answer
  | _ => none

omit [DecidableEq Key] in
theorem Sys.returned_eq_some {s : Sys Row Index Req Resp Upstream Call α} {answer : α} :
    s.returned sid = some answer ↔ ∃ call tx, s.sessions sid = some ⟨call, some (.ret answer), tx⟩ := by
  unfold Sys.returned
  split
  · rename_i call answer' tx hsession
    rw [hsession]
    simp
  · rename_i hnot
    simp only [reduceCtorEq, false_iff, not_exists]
    exact fun call tx hsession => hnot call answer tx hsession

section Alone

variable [DecidableEq Index] {V : Server Row Index Req Resp Upstream Call α}
  {s t : Sys Row Index Req Resp Upstream Call α} {call : Call} {o : Op Row Req}
  {P : Protocol Row Call α} {steps : Nat}

/-- The session's remaining program establishes `Q` from what it has before it. -/
structure Follows (V : Server Row Index Req Resp Upstream Call α)
    (Q : α → View Row Upstream → Prop) (sid : Nat) (call : Call)
    (s : Sys Row Index Req Resp Upstream Call α) : Prop where
  session : ∃ p tx v, s.sessions sid = some ⟨call, some p, tx⟩ ∧ Agrees s.toShared sid tx v ∧
    p.serial V.schema v Q

theorem Follows.step {Q : α → View Row Upstream → Prop} {a : Action Key Call}
    (hfollows : Follows V Q sid call s) (honly : onlyBy sid s a) (hstep : step V s a = some t) :
    Follows V Q sid call t := by
  obtain ⟨p, tx, v, hsession, ha, hserial⟩ := hfollows.session
  obtain ⟨_, _, _, rfl⟩ |
    ⟨_, choice, call', o, next, tx', answer, sh', tx'', hsession', hexec, rfl⟩ |
    ⟨_, _, _, _, _, rfl⟩ | ⟨elapsed, rfl⟩ := step_cases hstep
  · exact honly.elim
  · obtain rfl : _ = sid := honly
    rw [hsession', some.injEq, Session.mk.injEq, some.injEq] at hsession
    obtain ⟨rfl, rfl, rfl⟩ := hsession
    obtain ⟨v', ha', hQ⟩ := exec_serial ha hserial hexec
    exact ⟨_, _, v', setSession_self .., ha', hQ⟩
  · exact honly.elim
  · exact ⟨p, tx, v, hsession, ha.quiet rfl rfl rfl rfl rfl le_rfl, hserial⟩

theorem exec_enabled {C : Contract Row} {l : Local Row} {Q : o.Result Resp → Local Row → Prop}
    (hm : Matches sh sid tx l) (halone : Unhindered sh sid) (hwp : o.wp C l Q) :
    ∃ choice out, o.exec S sid choice sh tx = some out := by
  have hverdict : ∀ key (old : Option (Row key)) row, verdict S sid sh tx key old row ≠ .wait := by
    intro key old row
    unfold verdict
    split_ifs
    · split
      · simp
      · split_ifs with _ _ hoccupied <;> simp_all [halone.reserved]
    · simp
  cases o with
  | begin | commit | rollback | utcNow | sqlNow | fresh | snapshot =>
    exact ⟨⟨[], .answered⟩, _, rfl⟩
  | request => exact ⟨⟨[], .answered⟩, _, rfl⟩
  | shuffle keys => exact ⟨⟨keys, .answered⟩, _, if_pos (List.Perm.refl keys)⟩
  | lock key | skipLocked key =>
    refine ⟨⟨[], .answered⟩, ?_⟩
    simp only [Op.exec, halone.locks key, if_true]
    split <;> exact ⟨_, rfl⟩
  | write key row =>
    refine ⟨⟨[], .answered⟩, ?_⟩
    obtain ⟨old, hheld, -⟩ := hwp
    simp only [Op.exec, (hm.held key old hheld).1, if_true]
    split
    · exact ⟨_, rfl⟩
    · rename_i hwait
      exact absurd hwait (hverdict _ _ _)
    · exact ⟨_, rfl⟩
  | insert key row =>
    refine ⟨⟨[], .answered⟩, ?_⟩
    simp only [Op.exec, halone.locks key, if_true]
    split
    · exact ⟨_, rfl⟩
    · exact ⟨_, rfl⟩
    · rename_i hwait
      exact absurd hwait (hverdict _ _ _)
    · split_ifs <;> exact ⟨_, rfl⟩
  | upsert key row update =>
    refine ⟨⟨[], .answered⟩, ?_⟩
    simp only [Op.exec, halone.locks key, if_true]
    split_ifs
    · split
      · exact ⟨_, rfl⟩
      · rename_i hwait
        exact absurd hwait (hverdict _ _ _)
      · exact ⟨_, rfl⟩
    · exact ⟨_, rfl⟩

theorem Unhindered.exec {choice : Choice Key} {answer : o.Result Resp} (halone : Unhindered sh sid)
    (hexec : o.exec S sid choice sh tx = some (answer, sh', tx')) : Unhindered sh' sid := by
  have ha : Agrees sh sid tx ⟨sh.committed, tx.writes, sh.upstream, true, 0⟩ :=
    ⟨halone, rfl, rfl, rfl, Nat.zero_le _, fun h => by simp at h⟩
  obtain ⟨v, ha', -⟩ := exec_serial ha (Op.serial_of_forall fun _ _ => trivial) hexec
  exact ha'.toUnhindered

theorem Protocol.Holds.finishes (hmet : P.MetBy V) {p : Prog Row Req Resp α} :
    ∀ {s : Sys Row Index Req Resp Upstream Call α} {tx : Txn Row}, P.Holds s →
      Unhindered s.toShared sid → s.sessions sid = some ⟨call, some p, tx⟩ →
      ∃ t answer tx', Reaches V (onlyBy sid) s t ∧
        t.sessions sid = some ⟨call, some (.ret answer), tx'⟩ := by
  induction p with
  | ret value => exact fun {s tx} _ _ hsession => ⟨s, value, tx, .refl s, hsession⟩
  | op o next ih =>
    intro s tx hholds halone hsession
    obtain ⟨l, hm, -, hwp⟩ := hholds.conforms sid _ hsession _ rfl
    obtain ⟨choice, ⟨answer, sh', tx'⟩, hexec⟩ := exec_enabled (S := V.schema) hm halone hwp
    have hstep : ReadCommitted.step V s (.run sid choice) =
        some (s.setSession sid ⟨call, some (next answer), tx'⟩ sh') := by
      simp [ReadCommitted.step, hsession, hexec]
    have honly : onlyBy sid s (.run sid choice) := rfl
    obtain ⟨t, value, tx'', hreach, hret⟩ := ih answer (hholds.step hmet hstep)
      (halone.exec hexec) (setSession_self ..)
    exact ⟨t, value, tx'', .trans (.tail (.refl s) honly hstep) hreach, hret⟩

/-- The call is begun in `s`, runs alone and is answered. -/
def Serves (V : Server Row Index Req Resp Upstream Call α)
    (s : Sys Row Index Req Resp Upstream Call α) (call : Call) (answer : α)
    (t : Sys Row Index Req Resp Upstream Call α) : Prop :=
  ∃ sid u tx, step V s (.start sid call) = some u ∧ Reaches V (onlyBy sid) u t ∧
    t.sessions sid = some ⟨call, some (.ret answer), tx⟩

theorem Serves.reaches {answer : α} (hserves : Serves V s call answer t) :
    Reaches V anyStep s t := by
  obtain ⟨sid, u, tx, hstart, hreach, -⟩ := hserves
  exact .trans (.tail (.refl s) trivial hstart) (hreach.mono fun _ _ _ => trivial)

theorem Reaches.exists_free {ok : Sys Row Index Req Resp Upstream Call α → Action Key Call → Prop}
    (hreach : Reaches V ok s t) (hrest : s.AtRest) : ∃ sid, t.sessions sid = none := by
  have hbound : ∃ bound, ∀ sid, bound ≤ sid → t.sessions sid = none := by
    refine hreach.invariant (I := fun u => ∃ bound, ∀ sid, bound ≤ sid → u.sessions sid = none)
      (fun u w a hu _ hstep => ?_) ⟨0, fun sid _ => hrest.1 sid⟩
    obtain ⟨bound, hfree⟩ := hu
    have hset : ∀ (sid : Nat) (session : Session Row Req Resp Call α) sh,
        ∃ bound, ∀ other, bound ≤ other → (u.setSession sid session sh).sessions other = none := by
      intro sid session sh
      refine ⟨max bound (sid + 1), fun other hother => ?_⟩
      have hne : other ≠ sid := by omega
      rw [setSession_of_ne hne]
      exact hfree other (by omega)
    obtain ⟨_, _, _, rfl⟩ | ⟨_, _, _, _, _, _, _, _, _, _, _, rfl⟩ | ⟨_, _, _, _, _, rfl⟩ |
      ⟨elapsed, rfl⟩ := step_cases hstep
    · exact hset _ _ _
    · exact hset _ _ _
    · exact hset _ _ _
    · exact ⟨bound, hfree⟩
  obtain ⟨bound, hfree⟩ := hbound
  exact ⟨bound, hfree bound le_rfl⟩

theorem Protocol.Holds.serves (hholds : P.Holds s) (hmet : P.MetBy V)
    (hquiet : Quiescent s.toShared) (hfree : s.sessions sid = none) (call : Call) :
    ∃ answer t, Serves V s call answer t := by
  have hstart : ReadCommitted.step V s (.start sid call) =
      some (s.setSession sid ⟨call, some (V.handler call), .idle⟩ s.toShared) := by
    simp [ReadCommitted.step, hfree]
  have halone : Unhindered s.toShared sid :=
    ⟨fun key => by simp [hquiet.locks, available], fun i => by simp [hquiet.reserved, available]⟩
  obtain ⟨t, answer, tx, hreach, hreturned⟩ :=
    Protocol.Holds.finishes hmet (hholds.step hmet hstart) halone (setSession_self ..)
  exact ⟨answer, t, sid, _, tx, hstart, hreach, hreturned⟩

theorem reaches_of_replicate :
    ∀ {s t : Sys Row Index Req Resp Upstream Call α},
      runSchedule V s (List.replicate steps (.run sid ⟨[], .answered⟩)) = some t →
      Reaches V (onlyBy sid) s t := by
  induction steps with
  | zero =>
    intro s t hschedule
    obtain rfl : s = t := by simpa [runSchedule, checkedSchedule] using hschedule
    exact .refl s
  | succ steps ih =>
    intro s t hschedule
    obtain ⟨u, hstep, hrest⟩ := bind_eq_some_iff.mp hschedule
    have honly : onlyBy sid s (.run sid ⟨[], .answered⟩) := rfl
    exact .trans (.tail (.refl s) honly hstep) (ih hrest)

theorem serves_of_alone {answer : α} (hschedule : runSchedule V s (alone sid call steps) = some t)
    (hreturned : t.returned sid = some answer) : Serves V s call answer t := by
  obtain ⟨u, hstart, hrest⟩ := bind_eq_some_iff.mp hschedule
  have hreach := reaches_of_replicate hrest
  obtain ⟨_, _, hnew, rfl⟩ := step_cases hstart
  obtain ⟨σ, hσ, hcall⟩ := hreach.invariant
    (I := fun v => ∃ σ, v.sessions sid = some σ ∧ σ.call = call)
    (fun _ _ _ ⟨σ, hσ, hcall⟩ _ hstep => by
      obtain ⟨σ', hσ', hcall'⟩ := call_step hstep hσ
      exact ⟨σ', hσ', hcall'.trans hcall⟩)
    ⟨_, setSession_self .., rfl⟩
  obtain ⟨call', tx, hsession⟩ := Sys.returned_eq_some.mp hreturned
  rw [hsession, some.injEq] at hσ
  subst hσ
  exact ⟨sid, _, tx, hstart, hreach, hcall ▸ hsession⟩

theorem Serves.spec {answer : α} {Q : α → AList Row → Upstream → Prop} {issued : Nat}
    (hserves : Serves V s call answer t) (hquiet : Quiescent s.toShared) (hissued : issued ≤ s.nextId)
    (hspec : (V.handler call).serial V.schema (.between s.committed s.upstream issued)
      fun answer v => v.engaged = false ∧ Q answer v.committed v.upstream) :
    Quiescent t.toShared ∧ Q answer t.committed t.upstream := by
  obtain ⟨sid, u, tx, hstart, hreach, hret⟩ := hserves
  obtain ⟨_, _, hnew, rfl⟩ := step_cases hstart
  have hinit : Follows V (fun answer v => v.engaged = false ∧ Q answer v.committed v.upstream) sid
      call (s.setSession sid ⟨call, some (V.handler call), .idle⟩ s.toShared) := by
    refine ⟨_, _, .between s.committed s.upstream issued, setSession_self .., ?_, hspec⟩
    exact ⟨⟨fun key => by simp [hquiet.locks, available], fun i => by simp [hquiet.reserved, available]⟩,
      rfl, rfl, rfl, hissued, fun _ => hquiet⟩
  have hfinal := hreach.invariant (fun _ _ _ hf honly hstep => hf.step honly hstep) hinit
  obtain ⟨p, tx', v, hsession, ha, hserial⟩ := hfinal.session
  rw [hret, some.injEq, Session.mk.injEq, some.injEq] at hsession
  obtain ⟨-, rfl, -⟩ := hsession
  rw [ha.committed, ha.upstream]
  exact ⟨ha.rested hserial.1, hserial.2⟩

/-- Calls served one after the other, the latest first, each allowed where it is made. -/
inductive Sequence (V : Server Row Index Req Resp Upstream Call α)
    (ok : Sys Row Index Req Resp Upstream Call α → Call → α → Prop)
    (s : Sys Row Index Req Resp Upstream Call α) :
    List (Call × α) → Sys Row Index Req Resp Upstream Call α → Prop
  | nil : Sequence V ok s [] s
  | cons {served : List (Call × α)} {t u : Sys Row Index Req Resp Upstream Call α} {call : Call}
      {answer : α} : Sequence V ok s served t → ok t call answer → Serves V t call answer u →
      Sequence V ok s ((call, answer) :: served) u

theorem Sequence.reaches {ok : Sys Row Index Req Resp Upstream Call α → Call → α → Prop}
    {served : List (Call × α)} (hseq : Sequence V ok s served t) : Reaches V anyStep s t := by
  induction hseq with
  | nil => exact .refl s
  | cons _ _ hserves ih => exact ih.trans hserves.reaches

/-- Serve concrete calls one after the other, each run for the given number of steps in a session of
its own. -/
def serveAll (V : Server Row Index Req Resp Upstream Call α)
    (check : Sys Row Index Req Resp Upstream Call α → Call → α → Bool) :
    List (Call × α) → Sys Row Index Req Resp Upstream Call α → List (Call × Nat) →
      Option (List (Call × α) × Sys Row Index Req Resp Upstream Call α)
  | served, s, [] => some (served, s)
  | served, s, (call, steps) :: calls => do
    let t ← runSchedule V s (alone served.length call steps)
    let answer ← t.returned served.length
    if check s call answer then serveAll V check ((call, answer) :: served) t calls else none

theorem sequence_of_serveAll {check : Sys Row Index Req Resp Upstream Call α → Call → α → Bool}
    {calls : List (Call × Nat)} :
    ∀ {served served' : List (Call × α)} {t u : Sys Row Index Req Resp Upstream Call α},
      Sequence V (fun t call answer => check t call answer = true) s served t →
      serveAll V check served t calls = some (served', u) →
      Sequence V (fun t call answer => check t call answer = true) s served' u ∧
        served'.map (·.1) = (calls.map (·.1)).reverse ++ served.map (·.1) := by
  induction calls with
  | nil =>
    intro served served' t u hseq hserve
    obtain ⟨rfl, rfl⟩ := Prod.mk.inj (some.inj hserve)
    exact ⟨hseq, rfl⟩
  | cons visit calls ih =>
    intro served served' t u hseq hserve
    obtain ⟨v, hrun, hrest⟩ := bind_eq_some_iff.mp hserve
    obtain ⟨answer, hreturned, hrest⟩ := bind_eq_some_iff.mp hrest
    obtain ⟨hcheck, hrest⟩ := ite_none_right_eq_some.mp hrest
    obtain ⟨hseq', hcalls⟩ := ih (.cons hseq hcheck (serves_of_alone hrun hreturned)) hrest
    exact ⟨hseq', by simp [hcalls]⟩

end Alone

end ReadCommitted
