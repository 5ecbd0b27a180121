import ControlPlane.Interleave.Deeds
import ControlPlane.ReadModels

/-!
# What the cache hands out

An expired entry is dropped under a lock of its own, after a look under another one. A reader is
still given what was stored last, and nothing fresh is dropped for its age.
-/

namespace ControlPlane.ReadModels

open Interleave

inductive CacheCall where
  | get (key : String)
  | set (key : String) (value : Value)
  | invalidateTenant (slug : String)
  | pruneCache

/-- The cache with callers of any kind. -/
def cacheMachine :
    Machine Op Op.Result World Choice Nat CacheCall (Except ReadError (Option Value)) where
  exec := exec
  env world elapsed := { world with clock := world.clock + elapsed }
  process
    | .get key => (cacheGet key).run
    | .set key value => (cacheSet key value >>= fun _ => pure none).run
    | .invalidateTenant slug => (invalidateTenant slug >>= fun _ => pure none).run
    | .pruneCache => (pruneCache >>= fun _ => pure none).run

abbrev CacheState := Sys Op Op.Result World CacheCall (Except ReadError (Option Value))

abbrev CacheStep := Event Op Op.Result World Choice Nat CacheCall (Except ReadError (Option Value))

/-- What was stored last under the key, unless it has been invalidated since. -/
def lastStored (key : String) : List CacheStep → Option Entry
  | [] => none
  | e :: earlier =>
    match e.does with
    | some (_, .store other value) =>
      if other = key then some ⟨e.before.state.clock, value⟩ else lastStored key earlier
    | some (_, .invalidate slug) =>
      if ownedBy slug key ∨ key = commandCenterKey then none else lastStored key earlier
    | _ => lastStored key earlier

/-- The session has looked at the key when the value was what had been stored last, and fresh. -/
def Given (history : List CacheStep) (sid : Nat) (key : String) (value : Value) : Prop :=
  ∃ earlier e entry, e :: earlier <:+ history ∧
    (e.does = some (sid, .lookup key) ∨ e.does = some (sid, .evict key)) ∧
    lastStored key earlier = some entry ∧ entry.value = value ∧
    e.before.state.clock - entry.storedAt < readModelCacheTtl

/-- A step of a lookup or of pruning leaves the entries that are fresh. -/
def SparesFresh (e : CacheStep) : Prop :=
  ∀ sid o, e.does = some (sid, o) →
    ((∃ key, o = .lookup key ∨ o = .evict key) ∨ ∃ now, o = .prune now) →
    ∀ key entry, e.before.state.cache key = some entry →
      e.before.state.clock - entry.storedAt < readModelCacheTtl → e.after.state.cache key = some entry

section Exec

variable {world world' : World} {choice : Choice} {o : Op} {answer : o.Result} {key : String}
  {value : Value}

def cacheAfter (world : World) (key : String) : Op → Option Entry
  | .evict other => if other = key ∧ hit world key = none then none else world.cache key
  | .store other value => if other = key then some ⟨world.clock, value⟩ else world.cache key
  | .invalidate slug => if ownedBy slug key ∨ key = commandCenterKey then none else world.cache key
  | .prune now => (world.cache key).filter fun entry => now - entry.storedAt < readModelCacheTtl * 2
  | _ => world.cache key

theorem hit_eq_some : hit world key = some value ↔ ∃ entry, world.cache key = some entry ∧
    world.clock - entry.storedAt < readModelCacheTtl ∧ entry.value = value := by
  simp [hit, Option.filter_eq_some_iff, Entry.fresh, and_assoc]

theorem exec_cache (hexec : exec world choice o = some (answer, world')) :
    world'.clock = world.clock ∧ ∀ key, world'.cache key = cacheAfter world key o := by
  cases o with
  | evict other =>
    simp only [exec] at hexec
    split at hexec
    · rename_i found hhit
      cases hexec
      refine ⟨rfl, fun key => (if_neg ?_).symm⟩
      rintro ⟨rfl, hnone⟩
      simp [hnone] at hhit
    · rename_i hhit
      cases hexec
      refine ⟨rfl, fun key => ?_⟩
      by_cases heq : other = key
      · subst heq
        simp [cacheAfter, hhit]
      · simp [cacheAfter, heq, Ne.symm heq]
  | store other value =>
    cases hexec
    refine ⟨rfl, fun key => ?_⟩
    by_cases heq : other = key
    · simp [cacheAfter, heq]
    · simp [cacheAfter, heq, Ne.symm heq]
  | apply mutation slug =>
    simp only [exec] at hexec
    split_ifs at hexec <;> cases hexec <;> exact ⟨rfl, fun _ => rfl⟩
  | arrange sections =>
    simp only [exec] at hexec
    split_ifs at hexec
    cases hexec
    exact ⟨rfl, fun _ => rfl⟩
  | _ =>
    cases hexec
    exact ⟨rfl, fun _ => rfl⟩

theorem hit_of_lookup {answer : Option Value} (choice : Choice)
    (hexec : exec world choice (.lookup key) = some (answer, world')) : hit world key = answer := by
  cases hexec
  rfl

theorem hit_of_evict {answer : Option Value} (choice : Choice)
    (hexec : exec world choice (.evict key) = some (answer, world')) : hit world key = answer := by
  simp only [exec] at hexec
  split at hexec <;> cases hexec <;> assumption

end Exec

section Run

variable {history : List CacheStep} {s t : CacheState} {sid : Nat} {key : String}
  {earlier : List CacheStep} {e : CacheStep}

theorem step_clock {a : Action Choice Nat CacheCall} (hstep : step cacheMachine s a = some t) :
    s.state.clock ≤ t.state.clock := by
  cases step_cases hstep with
  | start sid call _ ht => exact Int.le_of_eq (ht ▸ rfl)
  | run sid choice call o next answer state _ hexec ht => exact Int.le_of_eq (ht ▸ (exec_cache hexec).1.symm)
  | drop sid call p _ ht => exact Int.le_of_eq (ht ▸ rfl)
  | env elapsed ht => exact ht ▸ Int.le_add_of_nonneg_right (Int.natCast_nonneg elapsed)

theorem clock_le_of_suffix (hrun : Run cacheMachine (fun _ _ _ => True) s history t)
    (hsuffix : e :: earlier <:+ history) : e.before.state.clock ≤ t.state.clock := by
  induction hrun with
  | nil => simp at hsuffix
  | cons _ _ hstep ih =>
    rcases List.suffix_cons_iff.mp hsuffix with heq | hsuffix
    · obtain ⟨rfl, -⟩ := List.cons.inj heq
      exact step_clock hstep
    · exact Int.le_trans (ih hsuffix) (step_clock hstep)

theorem lastStored_cons {o : Op} {entry : Entry} (hdoes : e.does = some (sid, o))
    (hstored : ∀ entry, e.before.state.cache key = some entry → lastStored key history = some entry)
    (hentry : cacheAfter e.before.state key o = some entry) :
    lastStored key (e :: history) = some entry := by
  cases o with
  | evict other =>
    simp only [lastStored, hdoes]
    simp only [cacheAfter] at hentry
    split_ifs at hentry
    exact hstored entry hentry
  | store other value | invalidate slug =>
    simp only [lastStored, hdoes]
    simp only [cacheAfter] at hentry
    split_ifs at hentry ⊢
    all_goals first | exact hentry | exact hstored entry hentry
  | prune now =>
    simp only [lastStored, hdoes]
    exact hstored entry (Option.filter_eq_some_iff.mp hentry).1
  | _ =>
    simp only [lastStored, hdoes]
    exact hstored entry hentry

theorem lastStored_of_run (hempty : ∀ key, s.state.cache key = none)
    (hrun : Run cacheMachine (fun _ _ _ => True) s history t) :
    ∀ entry, t.state.cache key = some entry → lastStored key history = some entry := by
  induction hrun with
  | nil => simp [hempty key]
  | @cons history t u a _ _ hstep ih =>
    intro entry hentry
    cases step_cases hstep with
    | run sid choice call o next answer state hsession hexec ht =>
      subst ht
      exact lastStored_cons (Event.does_run hsession) ih (((exec_cache hexec).2 key).symm.trans hentry)
    | start sid call _ ht | drop sid call p _ ht | env elapsed ht =>
      subst ht
      exact ih entry hentry

/-- A session prunes with a time it has read. -/
def readBefore (past : Trace Op Op.Result) : Op → Prop
  | .prune now => ⟨.now, now⟩ ∈ past
  | _ => True

def Promised : CacheCall → Trace Op Op.Result → Except ReadError (Option Value) → Prop
  | .get key, past, answer => ∀ value, answer = .ok (some value) →
      ⟨.lookup key, some value⟩ ∈ past ∨ ⟨.evict key, some value⟩ ∈ past
  | _, _, _ => True

theorem meets_call (call : CacheCall) :
    (cacheMachine.process call).Meets (logging readBefore) [] (Promised call) := by
  cases call with
  | get key =>
    refine ⟨trivial, ?_⟩
    rintro (_ | value) past rfl
    · refine ⟨trivial, ?_⟩
      rintro (_ | value) past rfl value' heq <;> cases heq
      exact .inr (by simp)
    · rintro value' heq
      cases heq
      exact .inl (by simp)
  | set key value => exact ⟨trivial, fun _ _ _ => trivial⟩
  | invalidateTenant slug => exact ⟨trivial, fun _ _ _ => trivial⟩
  | pruneCache =>
    refine ⟨trivial, ?_⟩
    rintro now past rfl
    exact ⟨List.mem_singleton_self _, fun _ _ _ => trivial⟩

theorem given_of_hit {value : Value} (hempty : ∀ key, s.state.cache key = none)
    (hrun : Run cacheMachine (fun _ _ _ => True) s history t) (hsuffix : e :: earlier <:+ history)
    (hkind : e.does = some (sid, .lookup key) ∨ e.does = some (sid, .evict key))
    (hhit : hit e.before.state key = some value) : Given history sid key value := by
  obtain ⟨entry, hentry, hfresh, rfl⟩ := hit_eq_some.mp hhit
  exact ⟨earlier, e, entry, hsuffix, hkind,
    lastStored_of_run hempty (hrun.of_suffix hsuffix).1 entry hentry, rfl, hfresh⟩

theorem sparesFresh_of_run (hsessions : ∀ sid, s.sessions sid = none)
    (hrun : Run cacheMachine (fun _ _ _ => True) s history t) (hsuffix : e :: earlier <:+ history) :
    SparesFresh e := by
  obtain ⟨hbefore, hstep⟩ := hrun.of_suffix hsuffix
  intro sid o hdoes hkind key entry hentry hfresh
  obtain ⟨before, action, after⟩ := e
  cases step_cases hstep with
  | run sid' choice call o' next answer state hsession hexec ht =>
    have hdone : some (sid', o') = some (sid, o) := (Event.does_run hsession).symm.trans hdoes
    obtain ⟨rfl, rfl⟩ := Prod.mk.inj (Option.some.inj hdone)
    obtain rfl : after = before.setSession sid' ⟨call, some (next answer)⟩ state := ht
    refine ((exec_cache hexec).2 key).trans ?_
    rcases hkind with ⟨other, rfl | rfl⟩ | ⟨now, rfl⟩
    · exact hentry
    · refine (if_neg ?_).trans hentry
      rintro ⟨-, hnone⟩
      have hhit : hit before.state key = some entry.value := hit_eq_some.mpr ⟨entry, hentry, hfresh, rfl⟩
      simp [hnone] at hhit
    · -- the time was read by the session before, so the clock is not behind it
      have hread := (hbefore.meets_deeds meets_call hsessions _ _ _ hsession).1
      obtain ⟨_, e', _, _, hsuffix', -, hnow⟩ := mem_deeds hread
      have hclock : now ≤ before.state.clock := by
        cases hnow
        exact clock_le_of_suffix hbefore hsuffix'
      have httl : (0 : Int) < readModelCacheTtl := by decide
      refine Option.filter_eq_some_iff.mpr ⟨hentry, decide_eq_true ?_⟩
      simp only [Instant] at *
      omega
  | start | drop | env => cases hdoes

/-- A value that is handed out is fresh, stored last under its key and not invalidated since;
lookups and pruning leave everything fresh. -/
theorem cache_hands_out_fresh (hsessions : ∀ sid, s.sessions sid = none)
    (hempty : ∀ key, s.state.cache key = none) (hrun : Run cacheMachine (fun _ _ _ => True) s history t) :
    (∀ sid key value, t.sessions sid = some ⟨.get key, some (.ret (.ok (some value)))⟩ →
      Given history sid key value) ∧
    ∀ earlier e, e :: earlier <:+ history → SparesFresh e := by
  refine ⟨fun sid key value hreturned => ?_, fun _ _ => sparesFresh_of_run hsessions hrun⟩
  rcases hrun.meets_deeds meets_call hsessions sid _ _ hreturned value rfl with hmem | hmem
  · obtain ⟨earlier, e, choice, state, hsuffix, hdoes, hexec⟩ := mem_deeds hmem
    exact given_of_hit hempty hrun hsuffix (.inl hdoes) (hit_of_lookup choice hexec)
  · obtain ⟨earlier, e, choice, state, hsuffix, hdoes, hexec⟩ := mem_deeds hmem
    exact given_of_hit hempty hrun hsuffix (.inr hdoes) (hit_of_evict choice hexec)

end Run

def emptyCache : CacheState where
  state := ⟨0, fun _ => none, [], fun _ => 0⟩
  sessions _ := none

theorem cache_hands_out_fresh_stored : ∃ history t,
    Run cacheMachine (fun _ _ _ => True) emptyCache history t ∧ Given history 1 "acme:today" [] := by
  have hset : ∃ history t, Run cacheMachine (fun _ _ _ => True) emptyCache history t ∧
      t.sessions 1 = some ⟨.get "acme:today", some (.ret (.ok (some [])))⟩ := by
    refine ⟨_, _, .cons (a := .run 1 ⟨true, []⟩) (.cons (a := .start 1 (.get "acme:today"))
      (.cons (a := .env 1000000) (.cons (a := .run 0 ⟨true, []⟩)
        (.cons (a := .start 0 (.set "acme:today" [])) .nil trivial rfl) trivial rfl) trivial rfl)
      trivial rfl) trivial rfl, rfl⟩
  obtain ⟨history, t, hrun, hreturned⟩ := hset
  exact ⟨history, t, hrun, (cache_hands_out_fresh (fun _ => rfl) (fun _ => rfl) hrun).1 1 _ _ hreturned⟩

end ControlPlane.ReadModels
