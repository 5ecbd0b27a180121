import ControlPlane.ReadCommitted.Protocol

/-!
# Partial unique indexes

No two rows carry the same entry of a partial unique index, counting open transactions: one that has
touched a row in the index holds the entry reserved. Statements whose new versions always pass the
constraints are never refused.
-/

namespace ReadCommitted

open Function AList

variable {Key : Type} [DecidableEq Key] {Row : Key → Type}
  {Index Req Resp Upstream Call α : Type}

def entry (S : Schema Row Index Req Resp Upstream) (db : AList Row) (key : Key) : Option Index :=
  (db.lookup key).bind (S.index key)

variable {S : Schema Row Index Req Resp Upstream} {key : Key} {i : Index} {sid : Nat}

section Entries

variable {db pending : AList Row}

theorem mem_of_entry (hentry : entry S db key = some i) : key ∈ db := by
  obtain ⟨row, hrow, -⟩ := Option.bind_eq_some_iff.mp hentry
  exact lookup_isSome.mp (by simp [hrow])

@[simp]
theorem entry_insert_self (row : Row key) : entry S (db.insert key row) key = S.index key row := by
  simp [entry]

theorem entry_insert_of_ne {other : Key} (hne : other ≠ key) (row : Row key) :
    entry S (db.insert key row) other = entry S db other := by
  simp [entry, lookup_insert_ne hne]

theorem entry_union_of_mem (hmem : key ∈ pending) :
    entry S (pending ∪ db) key = entry S pending key := by
  rw [entry, lookup_union_left hmem, entry]

theorem entry_union_of_notMem (hmem : key ∉ pending) :
    entry S (pending ∪ db) key = entry S db key := by
  rw [entry, lookup_union_right hmem, entry]

theorem occupied_eq_false_iff [DecidableEq Index] :
    occupied S db key i = false ↔ ∀ other, other ≠ key → entry S db other ≠ some i := by
  rw [← Bool.not_eq_true, occupied, List.any_eq_true]
  constructor
  · intro hnone other hne hentry
    exact hnone ⟨other, mem_keys.mpr (mem_of_entry hentry), decide_eq_true ⟨hne, hentry⟩⟩
  · rintro hnone ⟨other, -, hother⟩
    obtain ⟨hne, hentry⟩ := of_decide_eq_true hother
    exact hnone other hne hentry

end Entries

def Carries (S : Schema Row Index Req Resp Upstream) (i : Index) (committed : AList Row)
    (pending : Nat → AList Row) (key : Key) : Prop :=
  entry S committed key = some i ∨ ∃ sid, entry S (pending sid) key = some i

/-- The entry `i` is held by at most one row, and reserved by whoever is changing that row. -/
structure Guarded (S : Schema Row Index Req Resp Upstream) (i : Index) (committed : AList Row)
    (pending : Nat → AList Row) (owner : Option Nat) : Prop where
  unique : ∀ key key', Carries S i committed pending key → Carries S i committed pending key' →
    key = key'
  reserved : ∀ sid, ∀ key ∈ pending sid,
    entry S (pending sid) key = some i ∨ entry S committed key = some i → owner = some sid

namespace Guarded

variable {committed : AList Row} {pending : Nat → AList Row} {owner : Option Nat}

/-- A session ends. The rows are new where they have been its own. -/
theorem settle {committed' : AList Row} (hg : Guarded S i committed pending owner)
    (hcarried : ∀ key, entry S committed' key = some i → Carries S i committed pending key)
    (hkept : ∀ other ≠ sid, ∀ key ∈ pending other, entry S committed' key = entry S committed key) :
    Guarded S i committed' (update pending sid ∅) (if owner = some sid then none else owner) := by
  have hle : ∀ key, Carries S i committed' (update pending sid ∅) key →
      Carries S i committed pending key := by
    rintro key (hc | ⟨other, ho⟩)
    · exact hcarried key hc
    · by_cases heq : other = sid
      · subst heq
        simp [entry] at ho
      · rw [update_of_ne heq] at ho
        exact Or.inr ⟨other, ho⟩
  refine ⟨fun key key' h h' => hg.unique key key' (hle key h) (hle key' h'), ?_⟩
  intro other key hmem hentry
  by_cases heq : other = sid
  · subst heq
    simp at hmem
  · rw [update_of_ne heq] at hmem hentry
    rw [hkept other heq key hmem] at hentry
    have howner := hg.reserved other key hmem hentry
    rw [howner, if_neg]
    simpa using heq

theorem abort (hg : Guarded S i committed pending owner) :
    Guarded S i committed (update pending sid ∅)
      (if owner = some sid then none else owner) :=
  hg.settle (fun _ hc => Or.inl hc) fun _ _ _ _ => rfl

theorem commit (hg : Guarded S i committed pending owner)
    (hdisjoint : ∀ other ≠ sid, ∀ key ∈ pending other, key ∉ pending sid) :
    Guarded S i (pending sid ∪ committed) (update pending sid ∅)
      (if owner = some sid then none else owner) := by
  refine hg.settle (fun key hc => ?_) fun other hne key hmem =>
    entry_union_of_notMem (hdisjoint other hne key hmem)
  by_cases hmem : key ∈ pending sid
  · rw [entry_union_of_mem hmem] at hc
    exact Or.inr ⟨sid, hc⟩
  · rw [entry_union_of_notMem hmem] at hc
    exact Or.inl hc

/-- A new version of a row nobody else is changing. It may keep its entry, leave the index, or enter
it when no other row is there. -/
theorem place [DecidableEq Index] (row : Row key)
    (hg : Guarded S i committed pending owner)
    (hdisjoint : ∀ other ≠ sid, key ∉ pending other)
    (henter : S.index key row = some i → entry S (pending sid ∪ committed) key ≠ some i →
      available owner sid = true ∧ occupied S committed key i = false ∧
        occupied S (pending sid) key i = false) :
    Guarded S i committed (update pending sid ((pending sid).insert key row))
      (if S.index key row = some i ∨ entry S (pending sid ∪ committed) key = some i
        then some sid else owner) := by
  -- the entry stays where it is carried, or the row enters an index nobody else is in
  have hle : ∀ k, Carries S i committed
      (update pending sid ((pending sid).insert key row)) k →
      Carries S i committed pending k ∨ k = key ∧ S.index key row = some i := by
    rintro k (hc | ⟨other, ho⟩)
    · exact Or.inl (Or.inl hc)
    · by_cases heq : other = sid
      · subst heq
        rw [update_self] at ho
        by_cases hkey : k = key
        · subst hkey
          rw [entry_insert_self] at ho
          exact Or.inr ⟨rfl, ho⟩
        · rw [entry_insert_of_ne hkey] at ho
          exact Or.inl (Or.inr ⟨other, ho⟩)
      · rw [update_of_ne heq] at ho
        exact Or.inl (Or.inr ⟨other, ho⟩)
  have hcarried : entry S (pending sid ∪ committed) key = some i →
      Carries S i committed pending key := by
    intro hentry
    by_cases hmem : key ∈ pending sid
    · rw [entry_union_of_mem hmem] at hentry
      exact Or.inr ⟨sid, hentry⟩
    · rw [entry_union_of_notMem hmem] at hentry
      exact Or.inl hentry
  have honly : S.index key row = some i ∨ entry S (pending sid ∪ committed) key = some i →
      ∀ k, Carries S i committed pending k → k = key := by
    intro hi k hk
    by_cases hentry : entry S (pending sid ∪ committed) key = some i
    · exact hg.unique k key hk (hcarried hentry)
    · obtain ⟨havailable, hcommitted, hpending⟩ := henter (hi.resolve_right hentry) hentry
      by_contra hne
      obtain hc | ⟨other, ho⟩ := hk
      · exact occupied_eq_false_iff.mp hcommitted k hne hc
      · have howner := hg.reserved other k (mem_of_entry ho) (Or.inl ho)
        obtain rfl := available_iff.mp havailable other howner
        exact occupied_eq_false_iff.mp hpending k hne ho
  refine ⟨fun k k' hk hk' => ?_, fun other k hmem hentry => ?_⟩
  · obtain hold | ⟨hkey, hi⟩ := hle k hk
    · obtain hold' | ⟨hkey', hi⟩ := hle k' hk'
      · exact hg.unique k k' hold hold'
      · exact (honly (Or.inl hi) k hold).trans hkey'.symm
    · obtain hold' | ⟨hkey', -⟩ := hle k' hk'
      · exact hkey.trans (honly (Or.inl hi) k' hold').symm
      · exact hkey.trans hkey'.symm
  · by_cases heq : other = sid
    · subst heq
      rw [update_self] at hmem hentry
      by_cases hkey : k = key
      · subst hkey
        rw [entry_insert_self] at hentry
        by_cases hin : S.index k row = some i ∨ entry S (pending other ∪ committed) k = some i
        · rw [if_pos hin]
        · rw [if_neg hin]
          rw [not_or] at hin
          have hc := hentry.resolve_left hin.1
          by_cases hpend : k ∈ pending other
          · exact hg.reserved other k hpend (Or.inr hc)
          · exact absurd ((entry_union_of_notMem hpend).trans hc) hin.2
      · rw [mem_insert, or_iff_right hkey] at hmem
        rw [entry_insert_of_ne hkey] at hentry
        rw [hg.reserved other k hmem hentry, ite_self]
    · rw [update_of_ne heq] at hmem hentry
      have howner := hg.reserved other k hmem hentry
      have hcarries : Carries S i committed pending k := by
        obtain hp | hc := hentry
        · exact Or.inr ⟨other, hp⟩
        · exact Or.inl hc
      rw [if_neg, howner]
      intro hin
      obtain rfl := honly hin k hcarries
      exact hdisjoint other heq hmem

end Guarded

def Sys.pending (s : Sys Row Index Req Resp Upstream Call α) (sid : Nat) : AList Row :=
  (s.sessions sid).elim ∅ (·.txn.writes)

section Steps

variable {s t : Sys Row Index Req Resp Upstream Call α} {sh : Shared Row Index Upstream}
  {session : Session Row Req Resp Call α}

omit [DecidableEq Key] in
theorem pending_setSession :
    (s.setSession sid session sh).pending = update s.pending sid session.txn.writes := by
  funext other
  by_cases heq : other = sid
  · subst heq
    simp [Sys.pending]
  · simp [Sys.pending, setSession_of_ne heq, update_of_ne heq]

omit [DecidableEq Key] in
theorem pending_of_session {σ : Session Row Req Resp Call α} (hσ : s.sessions sid = some σ) :
    s.pending sid = σ.txn.writes := by
  simp [Sys.pending, hσ]

omit [DecidableEq Key] in
theorem locked_of_pending (hdisc : Disciplined s) (hmem : key ∈ s.pending sid) :
    s.locks key = some sid := by
  unfold Sys.pending at hmem
  cases hσ : s.sessions sid with
  | none => simp [hσ] at hmem
  | some σ =>
    rw [hσ, Option.elim_some] at hmem
    exact hdisc.locksWrites sid σ hσ key hmem

variable [DecidableEq Index] {V : Server Row Index Req Resp Upstream Call α}
  {P : Protocol Row Call α}

def IndexGuarded (S : Schema Row Index Req Resp Upstream) (i : Index)
    (s : Sys Row Index Req Resp Upstream Call α) : Prop :=
  Guarded S i s.committed s.pending (s.reserved i)

theorem reserve_apply (table : Index → Option Nat) (sid : Nat) (o : Option Index) (i : Index) :
    reserve table sid o i = if o = some i then some sid else table i := by
  cases o with
  | none => simp [reserve]
  | some j =>
    by_cases heq : i = j
    · subst heq
      simp [reserve]
    · have hne : ¬ j = i := fun h => heq h.symm
      simp [reserve, update_of_ne heq, hne]

variable {tx : Txn Row} {row : Row key} {a : Action Key Call}

theorem verdict_accept
    (hverdict : verdict S sid sh tx key ((visible sh tx).lookup key) row = .accept)
    (hindex : S.index key row = some i) (hnew : entry S (visible sh tx) key ≠ some i) :
    available (sh.reserved i) sid = true ∧ occupied S sh.committed key i = false ∧
      occupied S tx.writes key i = false := by
  rw [entry] at hnew
  unfold verdict at hverdict
  rw [hindex] at hverdict
  simp only [if_neg hnew] at hverdict
  split_ifs at hverdict with hcheck havailable hoccupied
  refine ⟨havailable, ?_, ?_⟩
  · exact Bool.eq_false_iff.mpr fun h => hoccupied (Or.inl h)
  · exact Bool.eq_false_iff.mpr fun h => hoccupied (Or.inr h)

theorem indexGuarded_step (hholds : P.Holds s) (hg : IndexGuarded V.schema i s)
    (hstep : step V s a = some t) : IndexGuarded V.schema i t := by
  unfold IndexGuarded at hg ⊢
  obtain ⟨sid, call, hnew, rfl⟩ |
    ⟨sid, choice, call, o, next, tx, answer, sh', tx', hsession, hexec, rfl⟩ |
    ⟨sid, call, p, tx, hsession, rfl⟩ | ⟨elapsed, rfl⟩ := step_cases hstep
  · have hsame : update s.pending sid ∅ = s.pending := by
      simp [Sys.pending, hnew]
    rw [pending_setSession]
    simp only [setSession_toShared, Txn.idle]
    rw [hsame]
    exact hg
  · have hpending : s.pending sid = tx.writes := pending_of_session hsession
    have hself : ∀ writes, writes = tx.writes → update s.pending sid writes = s.pending := by
      rintro writes rfl
      rw [← hpending, update_eq_self]
    have heffect := ((hholds.conforms _ _ hsession).exec hholds.inv hexec).1
    rw [pending_setSession]
    cases heffect with
    | quiet hcommitted hreserved hwrites =>
      simp only [setSession_toShared]
      rw [hself _ hwrites, hcommitted, hreserved]
      exact hg
    | refused =>
      simp only [setSession_toShared, refuse]
      rw [hself _ rfl]
      exact hg
    | committed =>
      have hdisjoint : ∀ other ≠ sid, ∀ key ∈ s.pending other, key ∉ s.pending sid := by
        intro other hne key hmem hmem'
        have hlock := locked_of_pending hholds.disciplined hmem
        rw [locked_of_pending hholds.disciplined hmem'] at hlock
        exact hne (Option.some.inj hlock).symm
      have hcommit := hg.commit hdisjoint
      rw [hpending] at hcommit
      exact hcommit
    | aborted => exact hg.abort
    | placed access key row htarget hfits hwrite havailable hverdict hplace =>
      have hdisjoint : ∀ other ≠ sid, key ∉ s.pending other := by
        intro other hne hmem
        exact hne (available_iff.mp havailable other (locked_of_pending hholds.disciplined hmem))
      have hplaced := hg.place row hdisjoint fun hindex hnew => by
        rw [hpending] at hnew ⊢
        exact verdict_accept hverdict hindex hnew
      obtain ⟨rfl, rfl⟩ := hplace
      rw [hpending] at hplaced
      simp only [setSession_toShared, reserve_apply, ← ite_or]
      exact hplaced
  · rw [pending_setSession]
    exact hg.abort
  · exact hg

omit [DecidableEq Index] in
theorem indexGuarded_of_atRest (hrest : s.AtRest)
    (hunique : ∀ key key', entry S s.committed key = some i → entry S s.committed key' = some i → key = key') :
    IndexGuarded S i s := by
  have hpending : ∀ sid, s.pending sid = ∅ := fun sid => by simp [Sys.pending, hrest.1 sid]
  refine ⟨fun key key' h h' => hunique key key' ?_ ?_, fun sid key hmem => ?_⟩
  · simpa [Carries, hpending, entry] using h
  · simpa [Carries, hpending, entry] using h'
  · simp [hpending] at hmem

def Unrefused (K : Key → Prop) (s : Sys Row Index Req Resp Upstream Call α) : Prop :=
  ∀ sid σ, s.sessions sid = some σ → ∀ key ∈ σ.txn.refused, ¬ K key

variable {K : Key → Prop}

omit [DecidableEq Key] [DecidableEq Index] in
theorem unrefused_of_atRest (hrest : s.AtRest) : Unrefused K s := by
  intro sid σ hσ
  simp [hrest.1 sid] at hσ

/-- A new version that passes its checks and stays where it was in the index is not refused. -/
theorem verdict_ne_refuse {old : Option (Row key)} {e : ConstraintError}
    (hcheck : S.check key row = true)
    (hindex : e ≠ .check → ∀ i, S.index key row = some i → old.bind (S.index key) = some i) :
    verdict S sid sh tx key old row ≠ .refuse e := by
  unfold verdict
  rw [if_pos hcheck]
  cases hi : S.index key row with
  | none => simp
  | some i =>
    simp only
    split_ifs with hstays havailable hoccupied
    · simp
    · intro hrefuse
      obtain rfl : ConstraintError.unique = e := by simpa using hrefuse
      exact hstays (hindex (by simp) i hi)
    · simp
    · simp

omit [DecidableEq Key] [DecidableEq Index] in
theorem Unrefused.setSession (h : Unrefused K s) (hown : ∀ key ∈ session.txn.refused, ¬ K key) :
    Unrefused K (s.setSession sid session sh) := by
  intro other σ hσ
  obtain ⟨-, rfl⟩ | ⟨-, hσ⟩ := setSession_eq_some.mp hσ
  · exact hown
  · exact h other σ hσ

theorem unrefused_step (hmet : P.MetBy V) (hholds : P.Holds s)
    (hcheck : ∀ key row, K key → P.inv key row → V.schema.check key row = true)
    (hindex : ∀ call rs access key old row, K key → access ≠ .insert →
      P.write call rs access key old row → ∀ i, V.schema.index key row = some i →
      old.bind (V.schema.index key) = some i) (h : Unrefused K s) (hstep : step V s a = some t) :
    Unrefused K t := by
  obtain ⟨sid, call, hnew, rfl⟩ |
    ⟨sid, choice, call, o, next, tx, answer, sh', tx', hsession, hexec, rfl⟩ |
    ⟨sid, call, p, tx, hsession, rfl⟩ | ⟨elapsed, rfl⟩ := step_cases hstep
  · exact h.setSession (by simp [Txn.idle])
  · have hown : ∀ key ∈ tx.refused, ¬ K key := h sid _ hsession
    refine h.setSession ?_
    have heffect := ((hholds.conforms _ _ hsession).exec hholds.inv hexec).1
    cases heffect with
    | quiet _ _ _ _ hrefused => rwa [hrefused]
    | committed => exact hown
    | aborted => exact hown
    | placed access key row _ _ _ _ _ hplace =>
      obtain ⟨rfl, rfl⟩ := hplace
      exact hown
    | refused access key old row e _ hold hwrite hverdict hinsert =>
      intro k hmem hK
      obtain rfl | hmem := List.mem_cons.mp hmem
      · have hinv : ∀ r, old = some r → P.inv k r := by
          rintro r rfl
          exact hholds.visible hmet hsession (hold.resolve_left (by simp)).symm
        refine absurd hverdict (verdict_ne_refuse (hcheck k row hK ?_) fun he => ?_)
        · exact hmet.keeps _ _ _ _ _ _ hinv hwrite
        · exact hindex _ _ access k old row hK (fun haccess => he (hinsert haccess)) hwrite
      · exact hown k hmem hK
  · have hown : ∀ key ∈ tx.refused, ¬ K key := h sid _ hsession
    exact h.setSession hown
  · exact h

end Steps

end ReadCommitted
