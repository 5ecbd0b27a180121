import ControlPlane.ReadCommitted.Conformance

/-!
# Whole runs

A protocol gives every call a contract over one row invariant. If each handler meets its own, the
invariant holds of every version in every reachable state, and a version about to be committed is
linked to the one it replaces by a chain of allowed writes.
-/

namespace ReadCommitted

open Option

variable {Key : Type} {Row : Key → Type} {Index Req Resp Upstream Call α : Type}

abbrev Writes (Row : Key → Type) : Type :=
  List Instant → Access → (key : Key) → Option (Row key) → Row key → Prop

inductive Chain (W : Writes Row) (readings : List Instant) (key : Key) (old : Option (Row key)) :
    Row key → Prop
  | single {rs : List Instant} {access : Access} {new : Row key} (hrs : rs <:+ readings)
      (hwrite : W rs access key old new) : Chain W readings key old new
  | snoc {rs : List Instant} {access : Access} {mid new : Row key}
      (hchain : Chain W readings key old mid) (hrs : rs <:+ readings)
      (hwrite : W rs access key (some mid) new) : Chain W readings key old new

namespace Chain

variable {W W' : Writes Row} {readings readings' : List Instant} {key : Key}
  {old : Option (Row key)} {new : Row key}

theorem of_suffix (hsuffix : readings <:+ readings') (hchain : Chain W readings key old new) :
    Chain W readings' key old new := by
  induction hchain with
  | single hrs hwrite => exact .single (hrs.trans hsuffix) hwrite
  | snoc _ hrs hwrite ih => exact .snoc ih (hrs.trans hsuffix) hwrite

theorem invariant {I : Row key → Prop}
    (hkeep : ∀ rs access old new, (∀ row, old = some row → I row) →
      W rs access key old new → I new)
    (hold : ∀ row, old = some row → I row) (hchain : Chain W readings key old new) : I new := by
  induction hchain with
  | single _ hwrite => exact hkeep _ _ _ _ hold hwrite
  | snoc _ _ hwrite ih =>
    refine hkeep _ _ _ _ (fun row hrow => ?_) hwrite
    obtain rfl := some.inj hrow
    exact ih

theorem relates {R : Option (Row key) → Row key → Prop}
    (hwrite : ∀ rs access old new, rs <:+ readings → W rs access key old new → R old new)
    (htrans : ∀ old mid new, R old mid → R (some mid) new → R old new)
    (hchain : Chain W readings key old new) : R old new := by
  induction hchain with
  | single hrs h => exact hwrite _ _ _ _ hrs h
  | snoc _ hrs h ih => exact htrans _ _ _ ih (hwrite _ _ _ _ hrs h)

theorem first (hchain : Chain W readings key old new) :
    ∃ rs access mid, rs <:+ readings ∧ W rs access key old mid := by
  induction hchain with
  | single hrs hwrite => exact ⟨_, _, _, hrs, hwrite⟩
  | snoc _ _ _ ih => exact ih

theorem last (hchain : Chain W readings key old new) :
    ∃ rs access mid, rs <:+ readings ∧ W rs access key mid new := by
  cases hchain with
  | single hrs hwrite => exact ⟨_, _, _, hrs, hwrite⟩
  | snoc _ hrs hwrite => exact ⟨_, _, _, hrs, hwrite⟩

end Chain

variable [DecidableEq Key]

/-- Every pending version comes from the committed one by writes of `W`. -/
def LinkedTxn (W : Writes Row) (sh : Shared Row Index Upstream) (tx : Txn Row) : Prop :=
  ∀ key row, tx.writes.lookup key = some row →
    Chain W tx.readings key (sh.committed.lookup key) row

namespace LinkedTxn

variable {W : Writes Row} {sh sh' : Shared Row Index Upstream} {tx tx' : Txn Row} {sid other : Nat}

theorem of_empty (hwrites : tx.writes = ∅) : LinkedTxn W sh tx := by
  intro key row hrow
  simp [hwrites] at hrow

theorem frame (hlinked : LinkedTxn W sh tx) (hlw : LocksWrites sh sid tx) (hne : sid ≠ other)
    (hframe : Framed other sh sh') : LinkedTxn W sh' tx := by
  intro key row hrow
  have hmem : key ∈ tx.writes := AList.lookup_isSome.mp (by simp [hrow])
  rw [hframe.committed sid hne key (hlw key hmem)]
  exact hlinked key row hrow

variable [DecidableEq Index] {S : Schema Row Index Req Resp Upstream} {C : Contract Row}
  {o : Op Row Req}

theorem effect (hlinked : LinkedTxn W sh tx) (heffect : Effect S C sid o sh tx sh' tx')
    (hplaced : ∀ access key row, o.target = some key →
      access.Fits (sh.locks key = some sid) ((visible sh tx).lookup key) →
      C.write tx.readings access key ((visible sh tx).lookup key) row →
      W tx.readings access key ((visible sh tx).lookup key) row) : LinkedTxn W sh' tx' := by
  cases heffect with
  | quiet hcommitted _ hwrites _ _ hreadings =>
    intro key row hrow
    rw [hwrites] at hrow
    rw [hcommitted]
    exact (hlinked key row hrow).of_suffix hreadings
  | refused => exact hlinked
  | committed => exact of_empty rfl
  | aborted => exact of_empty rfl
  | placed access key row htarget hfits hwrite _ _ hplace =>
    have hW := hplaced access key row htarget hfits hwrite
    obtain ⟨rfl, rfl⟩ := hplace
    intro k r hr
    by_cases heq : k = key
    · subst heq
      obtain rfl : row = r := by simpa using hr
      -- the version the write replaces is pending already, or it is the committed one
      rw [lookup_visible] at hW
      cases hpending : tx.writes.lookup k with
      | none =>
        rw [hpending, none_or] at hW
        exact .single List.suffix_rfl hW
      | some mid =>
        rw [hpending, some_or] at hW
        exact .snoc (hlinked k mid hpending) List.suffix_rfl hW
    · rw [AList.lookup_insert_ne heq] at hr
      exact hlinked k r hr

end LinkedTxn

structure Protocol (Row : Key → Type) (Call α : Type) where
  inv : (key : Key) → Row key → Prop
  write : Call → Writes Row
  commit : Call → AList Row → Prop
  resume : Call → AList Row → Prop
  answer : Call → α → Local Row → Prop

namespace Protocol

variable (P : Protocol Row Call α)

def contract (call : Call) : Contract Row where
  rely := P.inv
  write := P.write call
  commit := P.commit call
  resume := P.resume call

structure MetBy (V : Server Row Index Req Resp Upstream Call α) : Prop where
  handler : ∀ call, (V.handler call).wp (P.contract call) .fresh (P.answer call)
  keeps : ∀ call rs access key old row, (∀ r, old = some r → P.inv key r) →
    P.write call rs access key old row → P.inv key row

structure Holds (s : Sys Row Index Req Resp Upstream Call α) : Prop where
  disciplined : Disciplined s
  inv : ∀ key row, s.committed.lookup key = some row → P.inv key row
  linked : ∀ sid σ, s.sessions sid = some σ → LinkedTxn (P.write σ.call) s.toShared σ.txn
  conforms : ∀ sid σ, s.sessions sid = some σ →
    Conforms (P.contract σ.call) (P.answer σ.call) s.toShared sid σ

variable {P} {V : Server Row Index Req Resp Upstream Call α}
  {s t : Sys Row Index Req Resp Upstream Call α}

theorem holds_of_atRest (hrest : s.AtRest)
    (hinv : ∀ key row, s.committed.lookup key = some row → P.inv key row) : P.Holds s where
  disciplined := disciplined_of_atRest hrest
  inv := hinv
  linked sid σ hσ := by rw [hrest.1 sid] at hσ; simp at hσ
  conforms sid σ hσ := by rw [hrest.1 sid] at hσ; simp at hσ

variable {key : Key} {sid : Nat} {σ : Session Row Req Resp Call α} {row : Row key}

theorem Holds.pending (hmet : P.MetBy V) (hholds : P.Holds s) (hσ : s.sessions sid = some σ)
    (hrow : σ.txn.writes.lookup key = some row) : P.inv key row :=
  (hholds.linked sid σ hσ key row hrow).invariant (fun _ _ _ _ => hmet.keeps _ _ _ _ _ _)
    fun _ => hholds.inv key _

theorem Holds.visible (hmet : P.MetBy V) (hholds : P.Holds s) (hσ : s.sessions sid = some σ)
    (hrow : (visible s.toShared σ.txn).lookup key = some row) : P.inv key row := by
  rw [lookup_visible, or_eq_some_iff] at hrow
  obtain hpending | ⟨-, hcommitted⟩ := hrow
  · exact hholds.pending hmet hσ hpending
  · exact hholds.inv key row hcommitted

variable [DecidableEq Index]

variable {a : Action Key Call}

/-- Links of the sessions after a step, when the session that acts only makes writes of `L`. -/
theorem linked_step {L : Call → Writes Row} (hholds : P.Holds s)
    (hlinked : ∀ sid σ, s.sessions sid = some σ → LinkedTxn (L σ.call) s.toShared σ.txn)
    (hplaced : ∀ sid choice call o next tx access key row, a = .run sid choice →
      s.sessions sid = some ⟨call, some (.op o next), tx⟩ → o.target = some key →
      access.Fits (s.locks key = some sid) ((visible s.toShared tx).lookup key) →
      P.write call tx.readings access key ((visible s.toShared tx).lookup key) row →
      L call tx.readings access key ((visible s.toShared tx).lookup key) row)
    (hstep : step V s a = some t) (sid : Nat) (σ : Session Row Req Resp Call α)
    (hσ : t.sessions sid = some σ) : LinkedTxn (L σ.call) t.toShared σ.txn := by
  obtain ⟨call, rfl⟩ | ⟨choice, rfl⟩ | rfl | ⟨hsame, other, hne, hframe⟩ :=
    framed_step hholds.disciplined hstep hσ
  · obtain ⟨_, _, hnew, rfl⟩ := step_cases hstep
    rw [setSession_self, some.injEq] at hσ
    subst hσ
    exact .of_empty rfl
  · obtain ⟨⟩ | ⟨_, _, call, o, next, tx, answer, sh', tx', hsession, hexec, rfl⟩ := step_cases hstep
    rw [setSession_self, some.injEq] at hσ
    subst hσ
    have heffect := ((hholds.conforms _ _ hsession).exec hholds.inv hexec).1
    refine (hlinked _ _ hsession).effect heffect fun access key row => ?_
    exact hplaced sid choice call o next tx access key row rfl hsession
  · obtain ⟨⟩ | ⟨⟩ | ⟨_, call, p, tx, hsession, rfl⟩ := step_cases hstep
    rw [setSession_self, some.injEq] at hσ
    subst hσ
    exact .of_empty rfl
  · exact (hlinked sid σ hsame).frame (hholds.disciplined.locksWrites sid σ hsame) (Ne.symm hne) hframe

/-- What a step does to the committed rows: nothing, or it commits one session's writes. -/
inductive Outcome (s t : Sys Row Index Req Resp Upstream Call α) (a : Action Key Call) : Prop
  | unchanged (hsame : t.committed = s.committed)
  | commits (sid : Nat) (choice : Choice Key) (call : Call)
      (next : (Op.commit : Op Row Req).Result Resp → Prog Row Req Resp α) (tx : Txn Row)
      (ha : a = .run sid choice)
      (hbefore : s.sessions sid = some ⟨call, some (.op .commit next), tx⟩)
      (hafter : t.sessions sid = some ⟨call, some (next ()), { tx with writes := ∅, saved := tx.writes }⟩)
      (hcommitted : t.committed = tx.writes ∪ s.committed)

theorem outcome (hstep : step V s a = some t) (hholds : P.Holds s) : Outcome s t a := by
  obtain ⟨sid, call, hnew, rfl⟩ |
    ⟨sid, choice, call, o, next, tx, answer, sh', tx', hsession, hexec, rfl⟩ |
    ⟨sid, call, p, tx, hsession, rfl⟩ | ⟨elapsed, rfl⟩ := step_cases hstep
  · exact .unchanged rfl
  · have heffect := ((hholds.conforms _ _ hsession).exec hholds.inv hexec).1
    cases heffect with
    | quiet hcommitted => exact .unchanged hcommitted
    | refused => exact .unchanged rfl
    | aborted => exact .unchanged rfl
    | placed access key row _ _ _ _ _ hplace =>
      obtain ⟨rfl, rfl⟩ := hplace
      exact .unchanged rfl
    | committed hop _ =>
      subst hop
      exact .commits sid choice call next tx rfl hsession (setSession_self ..) rfl
  · exact .unchanged rfl
  · exact .unchanged rfl

/-- A step that changes a committed row commits a session's transaction, which has come to the new
version by writes its call may make. -/
inductive Changed (P : Protocol Row Call α) (s t : Sys Row Index Req Resp Upstream Call α)
    (a : Action Key Call) (key : Key) : Prop
  | mk (sid : Nat) (choice : Choice Key) (call : Call)
      (next : (Op.commit : Op Row Req).Result Resp → Prog Row Req Resp α) (tx : Txn Row)
      (new : Row key) (ha : a = .run sid choice)
      (hbefore : s.sessions sid = some ⟨call, some (.op .commit next), tx⟩)
      (hafter : t.sessions sid = some ⟨call, some (next ()), { tx with writes := ∅, saved := tx.writes }⟩)
      (hwritten : tx.writes.lookup key = some new) (hnow : t.committed.lookup key = some new)
      (hchain : Chain (P.write call) tx.readings key (s.committed.lookup key) new)

theorem changed (hstep : step V s a = some t) (hholds : P.Holds s)
    (hchange : t.committed.lookup key ≠ s.committed.lookup key) : Changed P s t a key := by
  cases outcome hstep hholds with
  | unchanged hsame => exact absurd (by rw [hsame]) hchange
  | commits sid choice call next tx ha hbefore hafter hcommitted =>
    rw [hcommitted, lookup_union] at hchange
    cases hwritten : tx.writes.lookup key with
    | none => exact absurd (by rw [hwritten, none_or]) hchange
    | some new =>
      refine ⟨sid, choice, call, next, tx, new, ha, hbefore, hafter, hwritten, ?_, ?_⟩
      · rw [hcommitted, lookup_union, hwritten, some_or]
      · exact hholds.linked sid _ hbefore key new hwritten

/-- The call whose transaction a step commits, if it has written the row. -/
def committing (key : Key) (s : Sys Row Index Req Resp Upstream Call α) :
    Action Key Call → Option Call
  | .run sid _ =>
    match s.sessions sid with
    | some ⟨call, some (.op .commit _), tx⟩ => if key ∈ tx.writes then some call else none
    | _ => none
  | _ => none

theorem lookup_of_not_committing (hstep : step V s a = some t) (hholds : P.Holds s)
    (hnone : committing key s a = none) : t.committed.lookup key = s.committed.lookup key := by
  by_contra hchange
  obtain ⟨sid, choice, call, next, tx, new, rfl, hbefore, -, hwritten, -, -⟩ :=
    changed hstep hholds hchange
  have hmem : key ∈ tx.writes := AList.lookup_isSome.mp (by simp [hwritten])
  simp [committing, hbefore, hmem] at hnone

theorem chain_of_committing {call : Call} (hstep : step V s a = some t) (hholds : P.Holds s)
    (hcall : committing key s a = some call) :
    ∃ new readings, t.committed.lookup key = some new ∧
      Chain (P.write call) readings key (s.committed.lookup key) new := by
  unfold committing at hcall
  split at hcall
  · split at hcall
    · rename_i sid _ _ _ next tx hsession
      split_ifs at hcall with hmem
      obtain rfl := some.inj hcall
      obtain ⟨new, hnew⟩ := isSome_iff_exists.mp (AList.lookup_isSome.mpr hmem)
      refine ⟨new, tx.readings, ?_, hholds.linked sid _ hsession key new hnew⟩
      rw [commit_step hsession hstep, lookup_union, hnew, some_or]
    · simp at hcall
  · simp at hcall

theorem Holds.step (hmet : P.MetBy V) (hholds : P.Holds s) (hstep : step V s a = some t) :
    P.Holds t where
  disciplined := hholds.disciplined.step hstep
  inv key row hrow := by
    cases outcome hstep hholds with
    | unchanged hsame => exact hholds.inv key row (hsame ▸ hrow)
    | commits sid choice call next tx _ hbefore _ hcommitted =>
      rw [hcommitted, lookup_union] at hrow
      cases hwritten : tx.writes.lookup key with
      | none =>
        rw [hwritten, none_or] at hrow
        exact hholds.inv key row hrow
      | some new =>
        rw [hwritten, some_or, some.injEq] at hrow
        exact hrow ▸ hholds.pending hmet hbefore hwritten
  linked := linked_step hholds hholds.linked (fun _ _ _ _ _ _ _ _ _ _ _ _ _ h => h) hstep
  conforms sid σ hσ := by
    -- the contract is that of the call the session serves, which never changes
    refine conforms_step hholds.disciplined hholds.inv ?_ (fun σ' hσ' => ?_) hstep hσ
    · rintro call rfl
      obtain ⟨_, _, _, rfl⟩ := step_cases hstep
      rw [setSession_self, some.injEq] at hσ
      subst hσ
      exact hmet.handler call
    · obtain ⟨σ'', hσ'', hcall⟩ := call_step hstep hσ'
      rw [hσ, some.injEq] at hσ''
      subst hσ''
      rw [hcall]
      exact hholds.conforms sid σ' hσ'

theorem Holds.reaches {ok : Sys Row Index Req Resp Upstream Call α → Action Key Call → Prop}
    (hmet : P.MetBy V) (hreach : Reaches V ok s t) (hholds : P.Holds s) : P.Holds t :=
  hreach.invariant (fun _ _ _ hs _ hstep => hs.step hmet hstep) hholds

section Versions

variable (key) {ok : Sys Row Index Req Resp Upstream Call α → Action Key Call → Prop}
  {new : Row key} {R : Row key → Row key → Prop} (hrefl : ∀ row, R row row)
  (htrans : ∀ {old mid new}, R old mid → R mid new → R old new)
include hrefl htrans

/-- A preorder on the versions of a row that every step keeps, every run keeps. -/
theorem related_of_steps
    (hstep : ∀ u v a old, Reaches V ok s u → step V u a = some v →
      u.committed.lookup key = some old → ∃ new, v.committed.lookup key = some new ∧ R old new)
    (hreach : Reaches V ok s t) (hrow : s.committed.lookup key = some row)
    (hnew : t.committed.lookup key = some new) : R row new := by
  have hversion : ∃ new, t.committed.lookup key = some new ∧ R row new := by
    clear hnew
    induction hreach with
    | refl => exact ⟨row, hrow, hrefl row⟩
    | tail hreach _ hact ih =>
      obtain ⟨mid, hmid, hrelated⟩ := ih
      obtain ⟨new, hnew, hlast⟩ := hstep _ _ _ mid hreach hact hmid
      exact ⟨new, hnew, htrans hrelated hlast⟩
  obtain ⟨found, hfound, hrelated⟩ := hversion
  obtain rfl := some.inj (hfound.symm.trans hnew)
  exact hrelated

theorem related_of_writes (hmet : P.MetBy V)
    (hwrite : ∀ call rs access old new, P.write call rs access key (some old) new → R old new)
    (hholds : P.Holds s) :
    Reaches V ok s t → s.committed.lookup key = some row → t.committed.lookup key = some new →
      R row new := by
  refine related_of_steps key hrefl htrans fun u v a old hu hstep hold => ?_
  by_cases hsame : v.committed.lookup key = u.committed.lookup key
  · exact ⟨old, hsame.trans hold, hrefl old⟩
  · obtain ⟨_, _, call, _, _, new, -, -, -, -, hnow, hchain⟩ :=
      changed hstep (hholds.reaches hmet hu) hsame
    refine ⟨new, hnow, hchain.relates (R := fun old new => ∀ row, old = some row → R row new)
      (fun rs access _ new _ hwritten row hrow => hwrite call rs access row new (hrow ▸ hwritten))
      (fun _ mid _ hfirst hlast row hrow => htrans (hfirst row hrow) (hlast mid rfl)) old hold⟩

end Versions

end Protocol

end ReadCommitted
