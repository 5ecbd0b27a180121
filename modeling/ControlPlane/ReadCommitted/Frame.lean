import ControlPlane.ReadCommitted.Semantics

/-!
# What one session cannot do to another

Whatever a session writes it has locked first, so a row it holds keeps its committed version until
its own transaction ends.
-/

namespace ReadCommitted

open Function Option AList

variable {Key : Type} [DecidableEq Key] {Row : Key → Type}
  {Index Req Resp Upstream Call α : Type}

theorem lookup_union (left right : AList Row) (key : Key) :
    (left ∪ right).lookup key = (left.lookup key).or (right.lookup key) := by
  by_cases hmem : key ∈ left
  · obtain ⟨row, hrow⟩ := isSome_iff_exists.mp (lookup_isSome.mpr hmem)
    rw [lookup_union_left hmem, hrow, some_or]
  · rw [lookup_union_right hmem, lookup_eq_none.mpr hmem, none_or]

@[simp]
theorem lookup_visible (sh : Shared Row Index Upstream) (tx : Txn Row) (key : Key) :
    (visible sh tx).lookup key = (tx.writes.lookup key).or (sh.committed.lookup key) :=
  lookup_union _ _ _

variable {sid : Nat} {owner : Option Nat}

theorem available_iff : available owner sid = true ↔ ∀ other, owner = some other → other = sid := by
  cases owner with
  | none => simp [available]
  | some other => simp [available]

theorem available_of_locked (hlock : owner = some sid) : available owner sid = true := by
  simp [available, hlock]

theorem release_eq_some_iff {ι : Type} {table : ι → Option Nat} {other : Nat} {i : ι} :
    release table sid i = some other ↔ table i = some other ∧ other ≠ sid := by
  unfold release
  split_ifs with howner
  · simp only [howner, some.injEq, false_iff, not_and, not_not]
    exact fun h => h.symm
  · constructor
    · intro htable
      refine ⟨htable, ?_⟩
      rintro rfl
      exact howner htable
    · exact fun h => h.1

def LocksWrites (sh : Shared Row Index Upstream) (sid : Nat) (tx : Txn Row) : Prop :=
  ∀ key ∈ tx.writes, sh.locks key = some sid

structure Framed (sid : Nat) (sh sh' : Shared Row Index Upstream) : Prop where
  locks : ∀ other ≠ sid, ∀ key, sh'.locks key = some other ↔ sh.locks key = some other
  committed : ∀ other ≠ sid, ∀ key, sh.locks key = some other →
    sh'.committed.lookup key = sh.committed.lookup key
  /-- Rows are never deleted. -/
  keys : ∀ key ∈ sh.committed, key ∈ sh'.committed

variable {sh sh' : Shared Row Index Upstream}

theorem Framed.of_same (hlocks : sh'.locks = sh.locks) (hcommitted : sh'.committed = sh.committed) :
    Framed sid sh sh' :=
  ⟨fun _ _ _ => by rw [hlocks], fun _ _ _ _ => by rw [hcommitted],
    fun _ hmem => by rwa [hcommitted]⟩

variable {key : Key}

theorem Framed.of_lock (havailable : available (sh.locks key) sid = true)
    (hlocks : sh'.locks = update sh.locks key (some sid))
    (hcommitted : sh'.committed = sh.committed) : Framed sid sh sh' := by
  refine ⟨fun other hne k => ?_, fun _ _ _ _ => by rw [hcommitted],
    fun _ hmem => by rwa [hcommitted]⟩
  rw [hlocks]
  by_cases heq : k = key
  · subst heq
    rw [update_self]
    constructor
    · intro h
      exact absurd (some.inj h).symm hne
    · intro h
      exact absurd (available_iff.mp havailable other h) hne
  · rw [update_of_ne heq]

theorem framed_settle {db : AList Row}
    (hdb : ∀ key, sh.locks key ≠ some sid → db.lookup key = sh.committed.lookup key)
    (hkeys : ∀ key ∈ sh.committed, key ∈ db) : Framed sid sh (settle sid sh db) := by
  refine ⟨fun other hne key => ?_, fun other hne key hlock => ?_, hkeys⟩
  · simp only [settle, release_eq_some_iff, and_iff_left hne]
  · apply hdb
    rw [hlock]
    intro heq
    exact hne (some.inj heq)

theorem framed_abort : Framed sid sh (settle sid sh sh.committed) :=
  framed_settle (fun _ _ => rfl) fun _ hmem => hmem

variable {tx tx' : Txn Row}

theorem mem_visible_of_committed (hmem : key ∈ sh.committed) : key ∈ visible sh tx :=
  mem_union.mpr (Or.inr hmem)

theorem LocksWrites.not_mem (hlw : LocksWrites sh sid tx) (hlock : sh.locks key ≠ some sid) :
    tx.writes.lookup key = none := by
  rw [lookup_eq_none]
  exact fun hmem => hlock (hlw key hmem)

theorem LocksWrites.lookup_visible (hlw : LocksWrites sh sid tx) (hlock : sh.locks key ≠ some sid) :
    (visible sh tx).lookup key = sh.committed.lookup key := by
  rw [ReadCommitted.lookup_visible, hlw.not_mem hlock, none_or]

omit [DecidableEq Key] in
theorem locksWrites_empty (sh : Shared Row Index Upstream) (sid : Nat) (tx : Txn Row)
    (hwrites : tx.writes = ∅) : LocksWrites sh sid tx := by
  intro key hmem
  rw [hwrites] at hmem
  exact absurd hmem (notMem_empty key)

theorem LocksWrites.of_lock (hlw : LocksWrites sh sid tx)
    (hlocks : sh'.locks = update sh.locks key (some sid))
    (hwrites : ∀ k ∈ tx'.writes, k = key ∨ k ∈ tx.writes) : LocksWrites sh' sid tx' := by
  intro k hmem
  rw [hlocks]
  by_cases heq : k = key
  · subst heq
    exact update_self ..
  · rw [update_of_ne heq]
    exact hlw k ((hwrites k hmem).resolve_left heq)

section Constraints

variable [DecidableEq Index]

theorem place_frame (S : Schema Row Index Req Resp Upstream) (old : Option (Row key))
    (row : Row key) (hlw : LocksWrites sh sid tx)
    (havailable : available (sh.locks key) sid = true) :
    LocksWrites (place S sid sh tx key old row).1 sid (place S sid sh tx key old row).2 ∧
      Framed sid sh (place S sid sh tx key old row).1 := by
  refine ⟨hlw.of_lock rfl fun k hmem => ?_, Framed.of_lock havailable rfl rfl⟩
  simpa [place, mem_insert] using hmem

variable {S : Schema Row Index Req Resp Upstream} {sid : Nat} {choice : Choice Key}
  {sh sh' : Shared Row Index Upstream} {tx tx' : Txn Row}

omit [DecidableEq Index] in
theorem settle_frame (hlw : LocksWrites sh sid tx) :
    Framed sid sh (settle sid sh (visible sh tx)) :=
  framed_settle (fun _ hlock => hlw.lookup_visible hlock) fun _ hmem => mem_visible_of_committed hmem

section Inversion

variable (S sid sh tx)

/-- The operations that can go ahead, each with its answer and what it leaves. -/
inductive Op.Did :
    (o : Op Row Req) → o.Result Resp → Shared Row Index Upstream → Txn Row → Prop
  | begin : Did .begin () sh { tx with start := sh.clock }
  | commit :
    Did .commit () (settle sid sh (visible sh tx)) { tx with writes := ∅, saved := tx.writes }
  | rollback : Did .rollback () (settle sid sh sh.committed) { tx with writes := ∅ }
  | utcNow : Did .utcNow sh.clock sh { tx with readings := sh.clock :: tx.readings }
  | sqlNow : Did .sqlNow tx.start sh tx
  | fresh : Did .fresh sh.nextId { sh with nextId := sh.nextId + 1 } tx
  | snapshot : Did .snapshot (visible sh tx) sh tx
  | shuffle {keys order : List Key} (hperm : order.Perm keys) : Did (.shuffle keys) order sh tx
  | lockNone {key : Key} (hnone : (visible sh tx).lookup key = none) : Did (.lock key) none sh tx
  | lock {key : Key} {row : Row key} (hrow : (visible sh tx).lookup key = some row)
    (havailable : available (sh.locks key) sid = true) :
    Did (.lock key) (some row) { sh with locks := update sh.locks key (some sid) } tx
  | skip {key : Key} (hskip : available (sh.locks key) sid = true → (visible sh tx).lookup key = none) :
    Did (.skipLocked key) none sh tx
  | take {key : Key} {row : Row key} (hrow : (visible sh tx).lookup key = some row)
    (havailable : available (sh.locks key) sid = true) :
    Did (.skipLocked key) (some row) { sh with locks := update sh.locks key (some sid) } tx
  | write {key : Key} {row : Row key} (hlock : sh.locks key = some sid)
    (hverdict : verdict S sid sh tx key ((visible sh tx).lookup key) row = .accept) :
    Did (.write key row) (.ok ()) (place S sid sh tx key ((visible sh tx).lookup key) row).1
      (place S sid sh tx key ((visible sh tx).lookup key) row).2
  | writeError {key : Key} {row : Row key} {e : ConstraintError}
    (hverdict : verdict S sid sh tx key ((visible sh tx).lookup key) row = .refuse e) :
    Did (.write key row) (.error e) sh (refuse tx key)
  | insert {key : Key} {row : AList Row → Row key} (hverdict : verdict S sid sh tx key none (row (visible sh tx)) = .accept)
    (hmem : key ∉ visible sh tx) (havailable : available (sh.locks key) sid = true) :
    Did (.insert key row) (.ok true) (place S sid sh tx key none (row (visible sh tx))).1
      (place S sid sh tx key none (row (visible sh tx))).2
  | conflict {key : Key} {row : AList Row → Row key} (hconflict : verdict S sid sh tx key none (row (visible sh tx)) =
      .refuse .unique ∨ key ∈ visible sh tx) : Did (.insert key row) (.ok false) sh tx
  | insertError {key : Key} {row : AList Row → Row key}
    (hverdict : verdict S sid sh tx key none (row (visible sh tx)) = .refuse .check) :
    Did (.insert key row) (.error .check) sh (refuse tx key)
  | upsert {key : Key} {row : Row key} {next : Row key → Row key} {old : Option (Row key)}
    {new : Row key} (hold : (visible sh tx).lookup key = old)
    (hnew : old.elim row next = new) (havailable : available (sh.locks key) sid = true)
    (hcheck : S.check key row = true) (hverdict : verdict S sid sh tx key old new = .accept) :
    Did (.upsert key row next) (.ok new) (place S sid sh tx key old new).1
      (place S sid sh tx key old new).2
  | unchecked {key : Key} {row : Row key} {next : Row key → Row key} (hcheck : S.check key row = false) :
    Did (.upsert key row next) (.error .check) sh (refuse tx key)
  | upsertError {key : Key} {row : Row key} {next : Row key → Row key} {e : ConstraintError} (hverdict : verdict S sid sh tx key ((visible sh tx).lookup key)
      (((visible sh tx).lookup key).elim row next) = .refuse e) :
    Did (.upsert key row next) (.error e) sh (refuse tx key)
  | request {req : Req} {answer : Resp} {upstream : Upstream} (hserved : (answer, upstream) = S.serve req sh.upstream ∨
      answer = S.unanswered ∧ (upstream = (S.serve req sh.upstream).2 ∨ upstream = sh.upstream)) :
    Did (.request req) answer { sh with upstream := upstream } tx

end Inversion

theorem Op.did {o : Op Row Req} {answer : o.Result Resp}
    (hexec : o.exec S sid choice sh tx = some (answer, sh', tx')) :
    o.Did S sid sh tx answer sh' tx' := by
  cases o <;> simp only [Op.exec] at hexec <;> repeat' split at hexec
  all_goals cases hexec <;> constructor
  all_goals simp_all

theorem exec_frame {o : Op Row Req} {answer : o.Result Resp} (hlw : LocksWrites sh sid tx)
    (hexec : o.exec S sid choice sh tx = some (answer, sh', tx')) :
    LocksWrites sh' sid tx' ∧ Framed sid sh sh' := by
  cases Op.did hexec with
  | commit => exact ⟨locksWrites_empty _ _ _ rfl, settle_frame hlw⟩
  | rollback => exact ⟨locksWrites_empty _ _ _ rfl, framed_abort⟩
  | lock _ havailable | take _ havailable =>
    exact ⟨hlw.of_lock rfl fun _ hmem => Or.inr hmem, Framed.of_lock havailable rfl rfl⟩
  | write hlock => exact place_frame S _ _ hlw (available_of_locked hlock)
  | insert _ _ havailable | upsert _ _ havailable => exact place_frame S _ _ hlw havailable
  | _ => exact ⟨hlw, Framed.of_same rfl rfl⟩

end Constraints

end ReadCommitted
