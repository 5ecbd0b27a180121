import ControlPlane.ReadCommitted.Script

/-!
# Scripts of sessions that hold rows

A script may let its sessions rely on rows they have locked from one operation to the next, without
any attention from the invariant of the run.
-/

namespace ReadCommitted

open Function List Option Scene

variable {Key : Type} [DecidableEq Key] {Row : Key → Type}
  {Index Req Resp Upstream Call α G : Type} {s : Sys Row Index Req Resp Upstream Call α}

structure Scene.Holds (c : Scene Row Upstream) (key : Key) (version : Option (Row key)) : Prop where
  mine : c.mine key
  committed : c.committed.lookup key = version

variable {S : Schema Row Index Req Resp Upstream} {K : Key → Prop} {c c' : Scene Row Upstream}
  {o : Op Row Req} {answer : o.Result Resp} {key : Key} {version : Option (Row key)} {sid : Nat}
  {sh' : Shared Row Index Upstream}

theorem Scene.Holds.acts (hspares : o.Spares K false) (hacts : o.Acts S c answer c')
    (hholds : c.Holds key version) : c'.Holds key version := by
  cases hacts.leads with
  | begin | commit | rollback => exact absurd hspares (by simp [Op.Spares])
  | request => exact hspares.elim
  | stay => exact hholds
  | fresh => exact ⟨hholds.mine, hholds.committed⟩
  | hold | put => exact ⟨.inr hholds.mine, hholds.committed⟩

theorem Op.Acts.clock (hacts : o.Acts S c answer c') : c'.clock = c.clock := by
  cases hacts.leads <;> rfl

theorem Op.Acts.start (hspares : o.Spares K false) (hacts : o.Acts S c answer c') :
    c'.start = c.start := by
  cases hacts.leads with
  | begin => exact absurd hspares (by simp [Op.Spares])
  | _ => rfl

theorem Scene.Holds.frame {other : Nat} {sh : Shared Row Index Upstream} {tx : Txn Row}
    (hne : sid ≠ other) (hframe : Framed other sh sh')
    (hholds : (of sid sh tx).Holds key version) : (of sid sh' tx).Holds key version :=
  ⟨(hframe.locks sid hne key).mpr hholds.mine,
    (hframe.committed sid hne key hholds.mine).trans hholds.committed⟩

variable {T : Script Row Req Upstream G} {held : G → (key : Key) → Option (Row key) → Prop}

/-- The script whose sessions also know the rows they hold in each phase. -/
def Script.holding (T : Script Row Req Upstream G)
    (held : G → (key : Key) → Option (Row key) → Prop) : Script Row Req Upstream G where
  known g c := T.known g c ∧ ∀ key version, held g key version → c.Holds key version
  move g o c g' c' := T.move g o c g' c' ∧ ∀ key version, held g' key version → c'.Holds key version

theorem Script.Passes.holding (hpasses : T.Passes S K) : (T.holding held).Passes S K :=
  fun g o c answer c' hknown hspares hacts => ⟨hpasses g o c answer c' hknown.1 hspares hacts,
    fun key version hheld => (hknown.2 key version hheld).acts hspares hacts⟩

def HoldsRows (held : G → (key : Key) → Option (Row key) → Prop)
    (s : Sys Row Index Req Resp Upstream Call α) (γ : Nat → G) : Prop :=
  ∀ sid tx, s.InFlight sid tx → ∀ key version, held (γ sid) key version →
    (Scene.of sid s.toShared tx).Holds key version

/-- The session that acts holds the rows of its new phase, the others those they held. -/
theorem HoldsRows.setSession {γ : Nat → G} {session : Session Row Req Resp Call α} {g : G}
    (hrows : HoldsRows held s γ) (hframe : Framed sid s.toShared sh')
    (hown : session.prog.isSome = true → ∀ key version, held g key version →
      (of sid sh' session.txn).Holds key version) :
    HoldsRows held (s.setSession sid session sh') (update γ sid g) := by
  intro other tx hflight key version hheld
  obtain ⟨rfl, rfl, hlive⟩ | ⟨hne, hflight'⟩ := hflight.cases
  · rw [update_self] at hheld
    exact hown hlive key version hheld
  · rw [update_of_ne hne] at hheld
    exact (hrows other tx hflight' key version hheld).frame hne hframe

/-- Held rows need no attention: what the moves of a script keep, they keep for sessions that also hold
rows. -/
theorem Script.Keeps.holding [DecidableEq Index]
    {V : Server Row Index Req Resp Upstream Call α}
    {ok : Sys Row Index Req Resp Upstream Call α → Action Key Call → Prop}
    {first : Sys Row Index Req Resp Upstream Call α → Call → G}
    {I : RunInvariant Row Index Req Resp Upstream Call α G} (hkeeps : T.Keeps V ok first I)
    (hfirst : ∀ s call key version, ¬ held (first s call) key version) :
    (T.holding held).Keeps V ok first fun history s γ =>
      I history s γ ∧ Disciplined s ∧ HoldsRows held s γ where
  start history s γ sid call t hI hok hstep hnew ht := by
    refine ⟨hkeeps.start history s γ sid call t hI.1 hok hstep hnew ht, ?_⟩
    subst ht
    refine ⟨hI.2.1.setSession (locksWrites_empty _ _ _ rfl) (Framed.of_same rfl rfl), ?_⟩
    refine hI.2.2.setSession (Framed.of_same rfl rfl) fun _ key version hheld => ?_
    exact absurd hheld (hfirst s call key version)
  known history s γ sid call o next tx hI hsession :=
    ⟨hkeeps.known history s γ sid call o next tx hI.1 hsession,
      hI.2.2 sid tx ⟨call, o, next, hsession⟩⟩
  run history s γ sid choice call o next tx answer sh' tx' g t hI hok hstep hsession hexec hmove ht := by
    refine ⟨hkeeps.run history s γ sid choice call o next tx answer sh' tx' g t hI.1 hok hstep hsession
      hexec hmove.1 ht, ?_⟩
    obtain ⟨hown, hframe⟩ := exec_frame (hI.2.1.locksWrites sid _ hsession) hexec
    subst ht
    exact ⟨hI.2.1.setSession hown hframe, hI.2.2.setSession hframe fun _ => hmove.2⟩
  crash history s γ sid call p tx t hI hok hstep hsession ht := by
    refine ⟨hkeeps.crash history s γ sid call p tx t hI.1 hok hstep hsession ht, ?_⟩
    subst ht
    refine ⟨hI.2.1.setSession (locksWrites_empty _ _ _ rfl) framed_abort, ?_⟩
    have hrows : HoldsRows held (s.setSession sid ⟨call, none, { tx with writes := ∅ }⟩
        (settle sid s.toShared s.committed)) (update γ sid (γ sid)) :=
      hI.2.2.setSession framed_abort (by simp)
    rwa [update_eq_self] at hrows
  tick history s γ elapsed t hI hok hstep ht := by
    refine ⟨hkeeps.tick history s γ elapsed t hI.1 hok hstep ht, ?_⟩
    subst ht
    exact ⟨⟨hI.2.1.locksWrites, hI.2.1.unstarted⟩, fun sid tx hflight key version hheld =>
      ⟨(hI.2.2 sid tx hflight key version hheld).mine,
        (hI.2.2 sid tx hflight key version hheld).committed⟩⟩

namespace Handler

variable {ε : Type} {g : G}
  {E : ε → AList Row → G → Prop} {qualifies : (key : Key) → Row key → Bool}

namespace Follows

variable {w : AList Row}

/-- Taking rows the others have not locked: each row that qualifies takes the session one phase
further. -/
theorem takeUnlocked {phase : List (Σ key, Row key) → G} (hpasses : T.Passes S K)
    (htake : ∀ taken key row c, T.known (phase taken) c → c.writes = w →
      c.seen.lookup key = some row → qualifies key row = true →
      T.move (phase taken) (.skipLocked key) c (phase (taken ++ [⟨key, row⟩])) (c.holding key))
    (keys : List Key) :
    ∀ {limit taken} {Q : List Key → AList Row → G → Prop},
      (∀ found : List (Σ key, Row key), (found.map Sigma.fst).Sublist keys →
        (∀ r ∈ found, qualifies r.1 r.2 = true) →
        Q (found.map Sigma.fst) w (phase (taken ++ found))) →
      Follows S T (Handler.takeUnlocked qualifies limit keys : Handler Row Req Resp ε _) w (phase taken) Q E := by
  induction keys with
  | nil =>
    intro limit taken Q hQ
    have hnone := hQ [] (List.Sublist.refl _) (by simp)
    rw [append_nil] at hnone
    exact .pure hnone
  | cons key rest ih =>
    intro limit taken Q hQ
    cases limit with
    | zero =>
      have hnone := hQ [] (nil_sublist _) (by simp)
      rw [append_nil] at hnone
      exact .pure hnone
    | succ limit =>
      refine .bind (.ask fun c answer c' hknown hwrites hacts => ?_)
      have hpass := hpasses (phase taken) (.skipLocked key) c answer c' hknown trivial hacts
      obtain ⟨hanswer, rfl⟩ := hacts
      rw [found_writes, hwrites]
      cases hfound : answer.filter (qualifies key) with
      | none =>
        refine ⟨phase taken, hpass, ih fun found hsub hall => ?_⟩
        exact hQ found (hsub.cons key) hall
      | some row =>
        obtain ⟨rfl, hqualifies⟩ := filter_eq_some_iff.mp hfound
        have hseen : c.seen.lookup key = some row := by
          obtain h | h := hanswer
          · exact h.symm
          · cases h
        refine ⟨_, htake taken key row c hknown hwrites hseen hqualifies,
          .bind (ih fun found hsub hall => .pure ?_)⟩
        rw [append_assoc, singleton_append]
        refine hQ (⟨key, row⟩ :: found) (hsub.cons_cons key) fun r hr => ?_
        obtain rfl | hr := mem_cons.mp hr
        · exact hqualifies
        · exact hall r hr

variable [OfConstraint ε]

theorem updateRow_lock {key : Key} {qualifies : Row key → Bool}
    {set : AList Row → Row key → Row key} {phase : Row key → G}
    {Q : Option (Row key) → AList Row → G → Prop} (hpasses : T.Passes S K)
    (hlock : ∀ c row, T.known g c → c.writes = w → c.seen.lookup key = some row →
      qualifies row = true → T.move g (.lock key) c (phase row) (c.holding key))
    (hnone : Q none w g)
    (hsome : ∀ seen row, qualifies row = true → Follows S T
      (Handler.write key (set seen row) : Handler Row Req Resp ε Unit) w (phase row)
      (fun _ w' g' => Q (some (set seen row)) w' g') E) :
    Follows S T (Handler.updateRow key qualifies set : Handler Row Req Resp ε _) w g Q E := by
  refine .bind (.snapshot (hpasses _) fun c _ _ => ?_)
  cases (c.seen.lookup key).filter qualifies with
  | none => exact .pure hnone
  | some _ =>
    refine .bind (.bind (.ask fun c' found c'' hknown hwrites hacts => ?_))
    have hpass := hpasses g (.lock key) c' found c'' hknown trivial hacts
    obtain ⟨hseen, rfl⟩ := hacts
    rw [found_writes, hwrites]
    cases hfound : found.filter qualifies with
    | none => exact ⟨g, hpass, .pure (.pure hnone)⟩
    | some row =>
      obtain ⟨rfl, hqualifies⟩ := filter_eq_some_iff.mp hfound
      refine ⟨phase row, hlock c' row hknown hwrites hseen.symm hqualifies, .pure ?_⟩
      exact .bind (.mono (fun _ _ _ hQ => .pure hQ) (fun _ _ _ he => he)
        (hsome c.seen row hqualifies))

variable {set : (key : Key) → Row key → Row key}
  {old : (key : Key) → Row key → Prop} {Q : Unit → AList Row → G → Prop}

/-- An update of rows whose committed versions are known all along writes each of them once. -/
theorem updateEach (hpasses : T.Passes S K) (hE : ∀ e w, E e w g) (keys : List Key) :
    ∀ {w : AList Row}, keys.Nodup → (∀ key ∈ keys, ¬ K key) → (∀ key ∈ keys, w.lookup key = none) →
      (∀ c, T.known g c → ∀ key ∈ keys, ∃ row, c.committed.lookup key = some row ∧
        qualifies key row = true ∧ old key row) →
      (∀ w' : AList Row, (∀ key ∈ keys, ∃ row, old key row ∧ w'.lookup key = some (set key row)) →
        (∀ key, key ∉ keys → w'.lookup key = w.lookup key) → Q () w' g) →
      Follows S T (Handler.updateEach qualifies set keys : Handler Row Req Resp ε Unit) w g Q E := by
  induction keys with
  | nil => exact fun _ _ _ _ hQ => .pure (hQ _ (by simp) fun _ _ => rfl)
  | cons key rest ih =>
    intro w hnodup hK hfree hknows hQ
    obtain ⟨hkey, hrest⟩ := nodup_cons.mp hnodup
    refine .bind (.bind (.lock (hpasses _) fun c hknown hwrites => ?_))
    obtain ⟨row, hrow, hqualifies, hold⟩ := hknows c hknown key mem_cons_self
    rw [lookup_seen, hwrites, hfree key mem_cons_self, none_or, hrow]
    refine .pure ?_
    simp only [filter_some, hqualifies, if_true]
    refine .bind (.write_of_passes (hpasses _) (hK key mem_cons_self) ?_ fun e => hE _ _)
    refine ih hrest (fun k hk => hK k (mem_cons_of_mem key hk)) (fun k hk => ?_)
      (fun c hc k hk => hknows c hc k (mem_cons_of_mem key hk)) fun w' heach hothers => ?_
    · rw [AList.lookup_insert_ne (ne_of_mem_of_not_mem hk hkey)]
      exact hfree k (mem_cons_of_mem key hk)
    · refine hQ w' (fun k hk => ?_) fun k hk => ?_
      · obtain rfl | hk := mem_cons.mp hk
        · exact ⟨row, hold, by rw [hothers k hkey, AList.lookup_insert]⟩
        · exact heach k hk
      · rw [mem_cons, not_or] at hk
        rw [hothers k hk.2, AList.lookup_insert_ne hk.1]

theorem updateWhere {keys : List Key} (hpasses : T.Passes S K) (hE : ∀ e w, E e w g)
    (hK : ∀ key ∈ keys, ¬ K key) (honly : ∀ key row, qualifies key row = true → key ∈ keys)
    (hknows : ∀ c, T.known g c → ∀ key ∈ keys, ∃ row, c.committed.lookup key = some row ∧
      qualifies key row = true ∧ old key row)
    (hQ : ∀ w : AList Row, (∀ key ∈ keys, ∃ row, old key row ∧ w.lookup key = some (set key row)) →
      (∀ key, key ∉ keys → w.lookup key = none) → Q () w g) :
    Follows S T (Handler.updateWhere qualifies set : Handler Row Req Resp ε Unit) ∅ g Q E := by
  refine .bind (.snapshot (hpasses _) fun c hknown hwrites => ?_)
  refine .bind (.shuffle (hpasses _) fun order horder => ?_)
  have hmem (key : Key) : key ∈ order ↔ key ∈ keys := by
    rw [horder.mem_iff, matching, mem_filter]
    constructor
    · rintro ⟨-, hany⟩
      obtain ⟨row, -, hqualifies⟩ := (any_eq_true _ _).mp hany
      exact honly key row hqualifies
    · intro hkey
      obtain ⟨row, hrow, hqualifies, -⟩ := hknows c hknown key hkey
      have hseen : c.seen.lookup key = some row := by
        rw [lookup_seen, hwrites]
        exact hrow
      refine ⟨AList.mem_keys.mp (AList.lookup_isSome.mp (by simp [hseen])), ?_⟩
      rw [hseen]
      exact hqualifies
  have hnodup : order.Nodup := horder.nodup_iff.mpr (c.seen.keys_nodup.filter _)
  refine .updateEach hpasses hE order hnodup (fun key hkey => hK key ((hmem key).mp hkey))
    (fun _ _ => rfl) (fun c hc key hkey => hknows c hc key ((hmem key).mp hkey))
    fun w heach hothers => hQ w (fun key hkey => heach key ((hmem key).mpr hkey)) fun key hkey => ?_
  exact hothers key (mt (hmem key).mp hkey)

end Follows

end Handler

end ReadCommitted
