import ControlPlane.ReadModels

/-!
# Reading one's own writes

A request that fetched its sections before a mutation can keep its projection after it. As long as
none does, a read shows every mutation that was over when it began.
-/

namespace ControlPlane.ReadModels

open Interleave Function Interleave.Task List Option

abbrev Console := Sys Op Op.Result World Call (Except ReadError Value)

abbrev Happening := Event Op Op.Result World Choice Nat Call (Except ReadError Value)

def applied (sid : Nat) : List Happening → Option (String × Nat)
  | [] => none
  | e :: earlier =>
    match e.does with
    | some (other, .apply _ slug) =>
      if other = sid ∧ e.before.state.version slug ≠ e.after.state.version slug then
        some (slug, e.after.state.version slug)
      else applied sid earlier
    | _ => applied sid earlier

def finished : List Happening → List (String × Nat)
  | [] => []
  | e :: earlier =>
    match e.does with
    | some (sid, .invalidate slug) =>
      ((applied sid earlier).filter (·.1 = slug)).toList ++ finished earlier
    | _ => finished earlier

/-- A state of the tenant that comes after all of the mutations. -/
def Reflects (mutations : List (String × Nat)) (slug : String) (version : Nat) : Prop :=
  ∀ n, (slug, n) ∈ mutations → n ≤ version

/-- Nothing in the projection was fetched before one of the mutations was applied. -/
def Current (mutations : List (String × Nat)) (value : Value) : Prop :=
  ∀ found ∈ value, ∀ version, found.version = some version → Reflects mutations found.slug version

/-- What is put into the map was fetched after the mutations that are over. -/
def Fresh (history : List Happening) (s : Console) (a : Action Choice Nat Call) : Prop :=
  ∀ sid choice key value, a = .run sid choice → s.doing sid = some (.store key value) →
    Current (finished history) value

instance (mutations : List (String × Nat)) (value : Value) : Decidable (Current mutations value) :=
  decidable_of_iff
    (∀ found ∈ value, ∀ version ∈ found.version.toList, ∀ item ∈ mutations,
      item.1 = found.slug → item.2 ≤ version) (by
    constructor
    · intro h found hfound version hversion n hn
      exact h found hfound version (by simp [hversion]) _ hn rfl
    · rintro h found hfound version hversion ⟨slug, n⟩ hn rfl
      exact h found hfound version (by simpa using hversion) n hn)

instance (history : List Happening) (s : Console) :
    (a : Action Choice Nat Call) → Decidable (Fresh history s a)
  | .run sid choice =>
    match hdoing : s.doing sid with
    | some (.store key value) =>
      decidable_of_iff (Current (finished history) value) (by
        constructor
        · rintro h _ _ key' value' ⟨⟩ hstore
          obtain ⟨-, rfl⟩ : key = key' ∧ value = value' := by simpa [hdoing] using hstore
          exact h
        · exact fun h => h sid choice key value rfl hdoing)
    | none | some (.lookup _) | some (.evict _) | some (.invalidate _) | some (.prune _)
    | some .now
    | some (.fetch _ _) | some .listTenants | some (.platform _) | some (.arrange _)
    | some (.apply _ _) =>
      .isTrue (by rintro _ _ key value ⟨⟩ hstore; simp [hdoing] at hstore)
  | .start _ _ | .drop _ | .env _ => .isTrue (by rintro _ _ _ _ ⟨⟩)

def Owned (key : String) (value : Value) : Prop :=
  ∀ found ∈ value, ownedBy found.slug key = true ∨ key = commandCenterKey

def Answers (mutations : List (String × Nat)) : (o : Op) → o.Result → Prop
  | .lookup _, answer | .evict _, answer => ∀ value, answer = some value → Current mutations value
  | .fetch slug _, answer => ∀ version, answer = some version → Reflects mutations slug version
  | .listTenants, answer => ∀ tenants, answer = some tenants → ∀ tenant ∈ tenants,
      Reflects mutations tenant.1 tenant.2
  | .arrange sections, answer => answer.Perm sections
  | _, _ => True

def contract : Contract Op Op.Result (List (String × Nat)) where
  may
    | _, .store key value => Owned key value
    | _, _ => True
  gets mutations o answer known := known = mutations ∧ Answers mutations o answer

section Meets

variable {mutations : List (String × Nat)} {E : List (String × Nat) → ReadError → Prop} {slug key : String}

structure Fetched (mutations : List (String × Nat)) (slug : String) (found : Section) : Prop where
  slug_eq : found.slug = slug
  reflects : ∀ version, found.version = some version → Reflects mutations slug version

def AllFetched (mutations : List (String × Nat)) (slug : String) (value : Value) : Prop :=
  ∀ found ∈ value, Fetched mutations slug found

variable {value : Value} {first second : Value} {path : String} {paths : List String}

theorem AllFetched.current (hall : AllFetched mutations slug value) : Current mutations value := by
  intro found hmem version hversion
  rw [(hall found hmem).slug_eq]
  exact (hall found hmem).reflects version hversion

theorem AllFetched.owned (hall : AllFetched mutations slug value) (hkey : ownedBy slug key = true) :
    Owned key value := by
  intro found hmem
  rw [(hall found hmem).slug_eq]
  exact .inl hkey

theorem AllFetched.append (hfirst : AllFetched mutations slug first)
    (hsecond : AllFetched mutations slug second) : AllFetched mutations slug (first ++ second) := by
  intro found hmem
  exact (mem_append.mp hmem).elim (hfirst found) (hsecond found)

theorem ownedBy_append {rest : String} (hrest : [':'].isPrefixOf rest.toList = true) :
    ownedBy slug (slug ++ rest) = true := by
  simpa [ownedBy] using hrest

theorem meets_ask {o : Op} {Q : List (String × Nat) → o.Result → Prop} :
    Meets contract (ask o : Reading o.Result) mutations Q E ↔
      contract.may mutations o ∧ ∀ answer, Answers mutations o answer → Q mutations answer := by
  rw [Task.meets_ask]
  refine and_congr_right fun _ => forall_congr' fun answer => ?_
  constructor
  · exact fun h hanswer => h mutations ⟨rfl, hanswer⟩
  · rintro h _ ⟨rfl, hanswer⟩
    exact h hanswer

theorem meets_fetchSection {Q : List (String × Nat) → Section → Prop}
    (hQ : ∀ found, Fetched mutations slug found → found.path = path → Q mutations found) :
    Meets contract (fetchSection slug path) mutations Q E := by
  refine .bind (meets_ask.mpr ⟨trivial, fun answer hanswer => ?_⟩)
  exact .pure (hQ _ ⟨rfl, hanswer⟩ rfl)

theorem meets_required {Q : List (String × Nat) → Section → Prop}
    (hQ : ∀ found, Fetched mutations slug found → Q mutations found) (hE : ∀ k e, E k e) :
    Meets contract (required slug path) mutations Q E := by
  refine .bind (meets_fetchSection fun found hfound _ => ?_)
  simp [hQ found hfound, hE]

theorem meets_target {Q : List (String × Nat) → Unit → Prop} (hQ : Q mutations ()) (hE : ∀ k e, E k e) :
    Meets contract (target slug) mutations Q E := by
  refine .bind (meets_required (fun _ _ => ?_) hE)
  exact .bind (meets_required (fun _ _ => .pure hQ) hE)

theorem meets_proxyGetValue {Q : List (String × Nat) → Section → Prop}
    (hQ : ∀ found, Fetched mutations slug found → Q mutations found) :
    Meets contract (proxyGetValue slug path) mutations Q E := by
  refine .bind (meets_fetchSection fun tenant _ _ => ?_)
  refine .bind (meets_fetchSection fun url _ _ => ?_)
  split_ifs
  · exact meets_fetchSection fun found hfound _ => hQ found hfound
  · exact .pure (hQ _ ⟨rfl, by simp⟩)

/-- The sections of one tenant, fetched in any order. -/
theorem meets_each {each : List (String × String) → Reading Value}
    {one : String → String → Reading Section} {order : List (String × String)}
    {Q : List (String × Nat) → Value → Prop} (hnil : each [] = pure [])
    (hcons : ∀ path rest, each ((slug, path) :: rest) = do
      let found ← one slug path
      let others ← each rest
      pure (found :: others))
    (hone : ∀ {path : String} {Q : List (String × Nat) → Section → Prop},
      (∀ found, Fetched mutations slug found → Q mutations found) →
      Meets contract (one slug path) mutations Q E)
    (hperm : order.Perm (paths.map fun path => (slug, path)))
    (hQ : ∀ value, AllFetched mutations slug value → Q mutations value) :
    Meets contract (each order) mutations Q E := by
  have hslug : ∀ item ∈ order, item.1 = slug := by
    intro item hmem
    obtain ⟨path, -, rfl⟩ := mem_map.mp (hperm.mem_iff.mp hmem)
    rfl
  clear hperm
  induction order generalizing Q with
  | nil =>
    rw [hnil]
    exact .pure (hQ [] (by simp [AllFetched]))
  | cons item rest ih =>
    obtain ⟨hitem, hrest⟩ := forall_mem_cons.mp hslug
    obtain ⟨itemSlug, path⟩ := item
    obtain rfl : itemSlug = slug := hitem
    rw [hcons]
    refine .bind (hone fun found hfound => ?_)
    refine .bind (ih (fun others hothers => ?_) hrest)
    exact .pure (hQ _ (forall_mem_cons.mpr ⟨hfound, hothers⟩))

variable {Q : List (String × Nat) → Value → Prop}

theorem meets_fanOut (hQ : ∀ value, AllFetched mutations slug value → Q mutations value) :
    Meets contract (fanOut slug paths) mutations Q E := by
  unfold fanOut
  rw [meets_bind, meets_ask]
  exact ⟨trivial, fun order hperm => meets_each rfl (fun _ _ => rfl)
    (fun hQ => meets_fetchSection fun found hfound _ => hQ found hfound) hperm hQ⟩

theorem meets_projectSections {sections : Value} (hQ : Q mutations sections) (hE : ∀ k e, E k e) :
    Meets contract (projectSections sections) mutations Q E := by
  simp [projectSections, hQ, hE]

theorem meets_validSlug {raw : String} {Q : List (String × Nat) → String →
  Prop} (hQ : ∀ slug, Q mutations slug) (hE : ∀ k e, E k e) :
    Meets contract (validSlug raw) mutations Q E := by
  simp [validSlug, hQ, hE]

theorem meets_cached {body : Reading Value} (hbody : Meets contract body mutations Current E) :
    Meets contract (cached key body) mutations Current E := by
  unfold cached cacheGet
  rw [meets_bind, meets_bind, meets_ask]
  refine ⟨trivial, fun answer hanswer => ?_⟩
  cases answer with
  | some value =>
    simp only [meets_pure]
    exact hanswer value rfl
  | none =>
    rw [meets_ask]
    refine ⟨trivial, fun answer hanswer => ?_⟩
    cases answer with
    | some value => exact .pure (hanswer value rfl)
    | none => exact hbody

theorem meets_keep (howned : Owned key value) (hQ : Q mutations value) :
    Meets contract (do
      cacheSet key value
      pure value) mutations Q E := by
  exact .bind (meets_ask.mpr ⟨howned, fun _ _ => .pure hQ⟩)

/-- A read of one tenant: its body makes sections of the tenant and keeps them under a key of it. -/
theorem meets_readModel (view : String) (paths : List String) (rawSlug : String) (hE : ∀ k e, E k e) :
    Meets contract (readModel view paths rawSlug) mutations Current E := by
  refine .bind (meets_validSlug (fun slug => ?_) hE)
  refine meets_cached ?_
  refine .bind (meets_target ?_ hE)
  refine .bind (meets_fanOut fun sections hsections => ?_)
  refine .bind (meets_projectSections ?_ hE)
  refine meets_keep (hsections.owned ?_) hsections.current
  rw [String.append_assoc]
  exact ownedBy_append (by simp)

theorem meets_overview (rawSlug : String) (hE : ∀ k e, E k e) :
    Meets contract (overview rawSlug) mutations Current E := by
  refine .bind (meets_validSlug (fun slug => ?_) hE)
  refine meets_cached ?_
  refine .bind (meets_required (fun tenant htenant => ?_) hE)
  refine .bind (meets_fanOut fun sections hsections => ?_)
  have hall : AllFetched mutations slug (tenant :: sections) :=
    forall_mem_cons.mpr ⟨htenant, hsections⟩
  rw [meets_bind, meets_ensure]
  exact ⟨fun _ => meets_keep (hall.owned (ownedBy_append rfl)) hall.current, fun _ => hE _ _⟩

theorem meets_today (documents : Documents) (rawSlug : String) (hE : ∀ k e, E k e) :
    Meets contract (today documents rawSlug) mutations Current E := by
  refine .bind (meets_validSlug (fun slug => ?_) hE)
  refine meets_cached ?_
  refine .bind (meets_target ?_ hE)
  refine .bind (meets_fanOut fun first hfirst => ?_)
  refine .bind (meets_fanOut fun second hsecond => ?_)
  have hall := hfirst.append hsecond
  refine .bind (meets_projectSections ?_ hE)
  exact meets_keep (hall.owned (ownedBy_append rfl)) hall.current

theorem meets_showModel (documents : Documents) (rawSlug rawEventSlug : String) (hE : ∀ k e, E k e) :
    Meets contract (showModel documents rawSlug rawEventSlug) mutations Current E := by
  refine .bind (meets_validSlug (fun slug => ?_) hE)
  refine .bind (meets_require.mpr ⟨fun eventSlug _ => ?_, fun e _ => hE _ e⟩)
  refine meets_cached ?_
  refine .bind (meets_target ?_ hE)
  refine .bind (meets_fanOut fun first hfirst => ?_)
  refine .bind (meets_require.mpr ⟨fun timeline _ => ?_, fun e _ => hE _ e⟩)
  refine .bind (meets_require.mpr ⟨fun ⟨eventId, night⟩ _ => ?_, fun e _ => hE _ e⟩)
  refine .bind (meets_fanOut fun second hsecond => ?_)
  have hall := hfirst.append hsecond
  refine .bind (meets_ensure.mpr ⟨fun _ => ?_, fun _ => hE _ _⟩)
  refine .bind (meets_projectSections ?_ hE)
  refine meets_keep (hall.owned ?_) hall.current
  rw [String.append_assoc]
  exact ownedBy_append (by simp)

theorem meets_tasksOverview (slug : String) :
    Meets contract (tasksOverview slug) mutations Current E := by
  refine meets_cached ?_
  refine .bind (meets_ask.mpr ⟨trivial, fun order hperm => ?_⟩)
  refine .bind (meets_each rfl (fun _ _ => rfl) meets_proxyGetValue hperm fun sections hsections => ?_)
  exact meets_keep (hsections.owned (ownedBy_append rfl)) hsections.current

theorem meets_providersOverview (slug : String) :
    Meets contract (providersOverview slug) mutations Current E := by
  refine meets_cached ?_
  refine .bind (meets_ask.mpr ⟨trivial, fun order hperm => ?_⟩)
  refine .bind (meets_each rfl (fun _ _ => rfl) meets_proxyGetValue hperm fun sections hsections => ?_)
  split_ifs
  · exact meets_keep (hsections.owned (ownedBy_append rfl)) hsections.current
  · simpa using hsections.current

theorem Current.cons {found : Section}
    (hfound : ∀ version, found.version = some version → Reflects mutations found.slug version)
    (hvalue : Current mutations value) : Current mutations (found :: value) :=
  forall_mem_cons.mpr ⟨hfound, hvalue⟩

theorem Current.append (hfirst : Current mutations first) (hsecond : Current mutations second) :
    Current mutations (first ++ second) := by
  intro found hmem
  exact (mem_append.mp hmem).elim (hfirst found) (hsecond found)

theorem meets_fetchSummaries : ∀ {sections : List (String × String)} {down : List String}
    {Q : List (String × Nat) → Value → Prop}, (∀ value, Current mutations value → Q mutations value) →
    Meets contract (fetchSummaries sections down) mutations Q E := by
  intro sections
  induction sections with
  | nil =>
    intro down Q hQ
    exact .pure (hQ [] (by simp [Current]))
  | cons item rest ih =>
    intro down Q hQ
    unfold fetchSummaries
    split_ifs with hdown htarget
    · refine .bind (ih fun others hothers => ?_)
      exact .pure (hQ _ (hothers.cons (by simp)))
    · exact .bind (meets_fetchSection fun found _ _ => ih hQ)
    · refine .bind (meets_fetchSection fun found hfound _ => ?_)
      refine .bind (ih fun others hothers => ?_)
      rw [meets_pure]
      refine hQ _ (hothers.cons ?_)
      rw [hfound.slug_eq]
      exact hfound.reflects

theorem meets_commandCenter (hE : ∀ k e, E k e) :
    Meets contract commandCenter mutations Current E := by
  refine meets_cached ?_
  refine .bind (meets_ask.mpr ⟨trivial, fun listed hlisted => ?_⟩)
  refine .bind (meets_require.mpr ⟨fun tenants htenants => ?_, fun e _ => hE _ e⟩)
  have hreflects : ∀ tenant ∈ tenants, Reflects mutations tenant.1 tenant.2 := by
    apply hlisted
    cases listed with
    | none => cases htenants
    | some found => rw [Except.ok.inj htenants]
  refine .bind (meets_ask.mpr ⟨trivial, fun order _ => ?_⟩)
  refine .bind (meets_fetchSummaries fun summaries hsummaries => ?_)
  refine .bind (meets_ask.mpr ⟨trivial, fun health _ => ?_⟩)
  refine .bind (meets_ask.mpr ⟨trivial, fun outbox _ => ?_⟩)
  rw [meets_bind, meets_ensure]
  refine ⟨fun _ => meets_keep (fun _ _ => .inr rfl) (Current.append ?_ hsummaries), fun _ => hE _ _⟩
  intro found hmem version hversion
  obtain ⟨⟨slug, listedVersion⟩, htenant, rfl⟩ := mem_map.mp hmem
  obtain rfl : listedVersion = version := by simpa using hversion
  exact hreflects _ htenant

theorem meets_mutate (mutation : Mutation) (slug : String) (hE : ∀ k e, E k e) :
    Meets contract (mutate mutation slug) mutations Current E := by
  refine .bind (meets_ask.mpr ⟨trivial, fun accepted _ => ?_⟩)
  refine .bind (meets_ensure.mpr ⟨fun _ => ?_, fun _ => hE _ _⟩)
  exact .bind (meets_ask.mpr ⟨trivial, fun _ _ => .pure (by simp [Current])⟩)

theorem meets_pruneCache : Meets contract (do
    pruneCache
    pure []) mutations Current E := by
  unfold pruneCache
  rw [meets_bind, meets_bind, meets_ask]
  refine ⟨trivial, fun now _ => ?_⟩
  rw [meets_ask]
  exact ⟨trivial, fun _ _ => .pure (by simp [Current])⟩

theorem meets_handler (documents : Documents) (call : Call) (hE : ∀ k e, E k e) :
    Meets contract (handler documents call) mutations Current E := by
  cases call with
  | portfolio rawSlug => exact meets_readModel _ _ rawSlug hE
  | audience rawSlug => exact meets_readModel _ _ rawSlug hE
  | pressOverview rawSlug => exact meets_readModel _ _ rawSlug hE
  | booking rawSlug => exact meets_readModel _ _ rawSlug hE
  | placesRooms rawSlug => exact meets_readModel _ _ rawSlug hE
  | placesOnline rawSlug => exact meets_readModel _ _ rawSlug hE
  | placesCities rawSlug => exact meets_readModel _ _ rawSlug hE
  | brain rawSlug => exact meets_readModel _ _ rawSlug hE
  | delivery rawSlug => exact meets_readModel _ _ rawSlug hE
  | proof rawSlug => exact meets_readModel _ _ rawSlug hE
  | inMotion rawSlug => exact meets_readModel _ _ rawSlug hE
  | content rawSlug => exact meets_readModel _ _ rawSlug hE
  | overview rawSlug => exact meets_overview rawSlug hE
  | today rawSlug => exact meets_today documents rawSlug hE
  | showModel rawSlug rawEventSlug => exact meets_showModel documents rawSlug rawEventSlug hE
  | tasksOverview slug => exact meets_tasksOverview slug
  | providersOverview slug => exact meets_providersOverview slug
  | commandCenter => exact meets_commandCenter hE
  | mutate mutation slug => exact meets_mutate mutation slug hE
  | pruneCache => exact meets_pruneCache

end Meets

variable {value : Value}

theorem Current.mono {fewer more : List (String × Nat)} (hsub : fewer ⊆ more)
    (hcurrent : Current more value) : Current fewer value :=
  fun found hmem version hversion n hn => hcurrent found hmem version hversion n (hsub hn)

variable {e : Happening} {history : List Happening} {sid : Nat}

theorem applied_cons_of_quiet
    (hquiet : ∀ other mutation slug, e.does ≠ some (other, .apply mutation slug)) :
    applied sid (e :: history) = applied sid history := by
  rw [applied]
  split
  · rename_i other mutation slug hdoes
    exact absurd hdoes (hquiet other mutation slug)
  · rfl

theorem finished_cons_of_quiet (hquiet : ∀ sid slug, e.does ≠ some (sid, .invalidate slug)) :
    finished (e :: history) = finished history := by
  rw [finished]
  split
  · rename_i sid slug hdoes
    exact absurd hdoes (hquiet sid slug)
  · rfl

variable {slug : String} {item : String × Nat}

theorem mem_finished_of_invalidate (hdoes : e.does = some (sid, .invalidate slug)) :
    item ∈ finished (e :: history) ↔
      applied sid history = some item ∧ item.1 = slug ∨ item ∈ finished history := by
  rw [finished]
  simp [hdoes, mem_toList, filter_eq_some_iff]

theorem mem_finished_cons (hmem : item ∈ finished history) : item ∈ finished (e :: history) := by
  by_cases hdoes : ∃ sid slug, e.does = some (sid, .invalidate slug)
  · obtain ⟨sid, slug, hdoes⟩ := hdoes
    exact (mem_finished_of_invalidate hdoes).mpr (.inr hmem)
  · push Not at hdoes
    rwa [finished_cons_of_quiet hdoes]

structure Sound (history : List Happening) (world : World) : Prop where
  kept : ∀ key entry, world.cache key = some entry →
    Owned key entry.value ∧ Current (finished history) entry.value
  applied_le : ∀ sid slug n, applied sid history = some (slug, n) → n ≤ world.version slug
  finished_le : ∀ slug n, (slug, n) ∈ finished history → n ≤ world.version slug

variable {world world' : World} {key : String}

theorem Sound.quiet (hsound : Sound history world)
    (happly : ∀ sid mutation slug, e.does ≠ some (sid, .apply mutation slug))
    (hinvalidate : ∀ sid slug, e.does ≠ some (sid, .invalidate slug))
    (hkept : ∀ key entry, world'.cache key = some entry →
      Owned key entry.value ∧ Current (finished history) entry.value)
    (hversion : world'.version = world.version) : Sound (e :: history) world' where
  kept := by rwa [finished_cons_of_quiet hinvalidate]
  applied_le sid slug n hn := by
    rw [applied_cons_of_quiet happly] at hn
    rw [hversion]
    exact hsound.applied_le sid slug n hn
  finished_le slug n hn := by
    rw [finished_cons_of_quiet hinvalidate] at hn
    rw [hversion]
    exact hsound.finished_le slug n hn

theorem Sound.store {storedAt : Instant} (hsound : Sound history world)
    (hdoes : e.does = some (sid, .store key value)) (howned : Owned key value)
    (hcurrent : Current (finished history) value) :
    Sound (e :: history)
      { world with cache := update world.cache key (some ⟨storedAt, value⟩) } := by
  refine hsound.quiet (by simp [hdoes]) (by simp [hdoes]) (fun other entry hentry => ?_) rfl
  dsimp only at hentry
  by_cases heq : other = key
  · subst heq
    rw [update_self] at hentry
    obtain rfl := some.inj hentry
    exact ⟨howned, hcurrent⟩
  · rw [update_of_ne heq] at hentry
    exact hsound.kept other entry hentry

theorem Sound.invalidate (hsound : Sound history world)
    (hdoes : e.does = some (sid, .invalidate slug)) :
    Sound (e :: history)
      { world with
        cache := fun key => if ownedBy slug key ∨ key = commandCenterKey then none else world.cache key } := by
  have happlied : ∀ sid, applied sid (e :: history) = applied sid history := fun sid =>
    applied_cons_of_quiet (by simp [hdoes])
  constructor
  · intro key entry hentry
    dsimp only at hentry
    split_ifs at hentry with hkey
    obtain ⟨howned, hcurrent⟩ := hsound.kept key entry hentry
    refine ⟨howned, fun found hmem version hversion n hn => ?_⟩
    rcases (mem_finished_of_invalidate hdoes).mp hn with ⟨-, hslug⟩ | hbefore
    · have hshown := howned found hmem
      rw [show found.slug = slug from hslug] at hshown
      exact absurd hshown hkey
    · exact hcurrent found hmem version hversion n hbefore
  · intro sid slug n hn
    rw [happlied] at hn
    exact hsound.applied_le sid slug n hn
  · intro other n hn
    rcases (mem_finished_of_invalidate hdoes).mp hn with ⟨hlast, -⟩ | hbefore
    · exact hsound.applied_le sid other n hlast
    · exact hsound.finished_le other n hbefore

theorem Sound.apply {mutation : Mutation} (hsound : Sound history world)
    (hdoes : e.does = some (sid, .apply mutation slug)) (hafter : e.after.state = world')
    (hcache : world'.cache = world.cache) (hgrow : ∀ slug, world.version slug ≤ world'.version slug) :
    Sound (e :: history) world' := by
  have hfinished : finished (e :: history) = finished history :=
    finished_cons_of_quiet (by simp [hdoes])
  constructor
  · intro key entry hentry
    rw [hfinished]
    rw [hcache] at hentry
    exact hsound.kept key entry hentry
  · intro other slug' n hn
    rw [applied] at hn
    simp only [hdoes] at hn
    split_ifs at hn with hself
    · obtain ⟨rfl, rfl⟩ : slug = slug' ∧ e.after.state.version slug = n := by simpa using hn
      rw [hafter]
    · exact (hsound.applied_le other slug' n hn).trans (hgrow slug')
  · intro slug' n hn
    rw [hfinished] at hn
    exact (hsound.finished_le slug' n hn).trans (hgrow slug')

structure Aware (history : List Happening) (s : Console) (γ : Nat → List (String × Nat)) : Prop where
  sound : Sound history s.state
  known : ∀ sid, γ sid ⊆ finished history
  since : ∀ earlier e sid call, e :: earlier <:+ history → e.action = .start sid call →
    γ sid = finished earlier
  started : ∀ earlier e sid call, e :: earlier <:+ history → e.action = .start sid call →
    s.sessions sid ≠ none

variable {s : Console} {γ : Nat → List (String × Nat)} {choice : Choice} {o : Op}
  {answer : o.Result}

theorem Aware.lookup (haware : Aware history s γ) (hhit : hit s.state key = some value) :
    Current (γ sid) value := by
  obtain ⟨entry, hentry, rfl⟩ := map_eq_some_iff.mp hhit
  have hkept := haware.sound.kept key entry (filter_eq_some_iff.mp hentry).1
  exact hkept.2.mono (haware.known sid)

theorem Aware.version (haware : Aware history s γ) : Reflects (γ sid) slug (s.state.version slug) :=
  fun n hn => haware.sound.finished_le slug n (haware.known sid hn)

theorem Aware.answers (haware : Aware history s γ)
    (hexec : exec s.state choice o = some (answer, world)) : Answers (γ sid) o answer := by
  cases o with
  | lookup key =>
    intro value hvalue
    obtain ⟨rfl, -⟩ : hit s.state key = answer ∧ s.state = world := by simpa [exec] using hexec
    exact haware.lookup hvalue
  | evict key =>
    intro value hvalue
    simp only [exec] at hexec
    split at hexec
    · rename_i found hhit
      obtain ⟨rfl, -⟩ : some found = answer ∧ s.state = world := by simpa using hexec
      exact haware.lookup (hhit.trans hvalue)
    · obtain ⟨rfl, -⟩ : none = answer ∧ _ := by simpa using hexec
      cases hvalue
  | fetch slug path =>
    intro version hversion
    obtain ⟨rfl, -⟩ : (if choice.answered && slug ∈ s.state.tenants then
      some (s.state.version slug) else none) = answer ∧ s.state = world := by simpa [exec] using hexec
    split_ifs at hversion
    rw [← some.inj hversion]
    exact haware.version
  | listTenants =>
    intro tenants htenants tenant hmem
    obtain ⟨rfl, -⟩ : (if choice.answered then
      some (s.state.tenants.map fun slug => (slug, s.state.version slug)) else none) = answer ∧
        s.state = world := by simpa [exec] using hexec
    split_ifs at htenants
    rw [← some.inj htenants] at hmem
    obtain ⟨slug, -, rfl⟩ := mem_map.mp hmem
    exact haware.version
  | arrange sections =>
    simp only [exec] at hexec
    split_ifs at hexec with hperm
    obtain ⟨rfl, -⟩ : choice.order = answer ∧ s.state = world := by simpa using hexec
    exact isPerm_iff.mp (Bool.and_eq_true_iff.mp hperm).1
  | store key value => trivial
  | invalidate slug => trivial
  | now => trivial
  | prune now => trivial
  | platform table => trivial
  | apply mutation slug => trivial

theorem Sound.exec {k : List (String × Nat)} (hsound : Sound history world)
    (hdoes : e.does = some (sid, o)) (hafter : e.after.state = world') (hmay : contract.may k o)
    (hfresh : ∀ key value, o = .store key value → Current (finished history) value)
    (hexec : ReadModels.exec world choice o = some (answer, world')) :
    Sound (e :: history) world' := by
  cases o with
  | store key value =>
    have hworld : _ = world' := congrArg Prod.snd (some.inj hexec)
    rw [← hworld]
    exact hsound.store hdoes hmay (hfresh key value rfl)
  | invalidate slug =>
    have hworld : _ = world' := congrArg Prod.snd (some.inj hexec)
    rw [← hworld]
    exact hsound.invalidate hdoes
  | apply mutation slug =>
    simp only [ReadModels.exec] at hexec
    split_ifs at hexec
    · have hworld : _ = world' := congrArg Prod.snd (some.inj hexec)
      refine hsound.apply hdoes hafter (by rw [← hworld]) fun other => ?_
      rw [← hworld]
      by_cases heq : other = slug
      · subst heq
        simp
      · simp [heq]
    · have hworld : world = world' := congrArg Prod.snd (some.inj hexec)
      exact hsound.apply hdoes hafter (by rw [hworld]) fun other => by rw [hworld]
  | evict key =>
    simp only [ReadModels.exec] at hexec
    split at hexec
    · have hworld : world = world' := congrArg Prod.snd (some.inj hexec)
      rw [← hworld]
      exact hsound.quiet (by simp [hdoes]) (by simp [hdoes]) hsound.kept rfl
    · have hworld : _ = world' := congrArg Prod.snd (some.inj hexec)
      rw [← hworld]
      refine hsound.quiet (by simp [hdoes]) (by simp [hdoes]) (fun other entry hentry => ?_) rfl
      by_cases heq : other = key
      · simp [heq] at hentry
      · exact hsound.kept other entry (by simpa [heq] using hentry)
  | prune now =>
    have hworld : _ = world' := congrArg Prod.snd (some.inj hexec)
    rw [← hworld]
    refine hsound.quiet (by simp [hdoes]) (by simp [hdoes]) (fun key entry hentry => ?_) rfl
    exact hsound.kept key entry (filter_eq_some_iff.mp hentry).1
  | lookup | now | fetch | listTenants | platform =>
    have hworld : world = world' := congrArg Prod.snd (some.inj hexec)
    rw [← hworld]
    exact hsound.quiet (by simp [hdoes]) (by simp [hdoes]) hsound.kept rfl
  | arrange sections =>
    simp only [ReadModels.exec] at hexec
    split_ifs at hexec
    have hworld : world = world' := congrArg Prod.snd (some.inj hexec)
    rw [← hworld]
    exact hsound.quiet (by simp [hdoes]) (by simp [hdoes]) hsound.kept rfl

theorem Aware.cons {t : Console} (haware : Aware history s γ)
    (hsound : Sound (e :: history) t.state) (hnostart : ∀ sid call, e.action ≠ .start sid call)
    (hsessions : ∀ sid, s.sessions sid ≠ none → t.sessions sid ≠ none) :
    Aware (e :: history) t γ where
  sound := hsound
  known sid item hitem := mem_finished_cons (haware.known sid hitem)
  since earlier e' sid call hsuffix hstart := by
    rcases suffix_cons_iff.mp hsuffix with heq | hbefore
    · obtain ⟨rfl, rfl⟩ := cons.inj heq
      exact absurd hstart (hnostart sid call)
    · exact haware.since earlier e' sid call hbefore hstart
  started earlier e' sid call hsuffix hstart := by
    rcases suffix_cons_iff.mp hsuffix with heq | hbefore
    · obtain ⟨rfl, rfl⟩ := cons.inj heq
      exact absurd hstart (hnostart sid call)
    · exact hsessions sid (haware.started earlier e' sid call hbefore hstart)

theorem setSession_ne_none {other : Nat}
    {session : Session Op Op.Result Call (Except ReadError Value)}
    (hother : s.sessions other ≠ none) :
    (s.setSession sid session world).sessions other ≠ none := by
  by_cases heq : other = sid
  · subst heq
    simp
  · rwa [Sys.setSession_of_ne s heq]

theorem keeps_aware (documents : Documents) :
    Keeps (machine documents) Fresh (fun history _ => finished history) contract Aware where
  start := by
    rintro history s γ sid call t haware - hnew rfl
    have hother : ∀ earlier e other call', e :: earlier <:+ history →
        e.action = .start other call' → other ≠ sid := by
      rintro earlier e other call' hbefore hstart rfl
      exact haware.started earlier e other call' hbefore hstart hnew
    constructor
    · exact haware.sound.quiet (by simp [Event.does]) (by simp [Event.does]) haware.sound.kept rfl
    · intro other
      by_cases heq : other = sid
      · subst heq
        rw [update_self]
        exact List.Subset.refl _
      · rw [update_of_ne heq]
        exact haware.known other
    · intro earlier e other call' hsuffix hstart
      rcases suffix_cons_iff.mp hsuffix with heq | hbefore
      · obtain ⟨rfl, rfl⟩ := cons.inj heq
        cases hstart
        rw [update_self]
      · rw [update_of_ne (hother earlier e other call' hbefore hstart)]
        exact haware.since earlier e other call' hbefore hstart
    · intro earlier e other call' hsuffix hstart
      rcases suffix_cons_iff.mp hsuffix with heq | hbefore
      · obtain ⟨rfl, rfl⟩ := cons.inj heq
        cases hstart
        simp
      · exact setSession_ne_none (haware.started earlier e other call' hbefore hstart)
  run := by
    rintro history s γ sid choice call o next answer world t haware hfresh hsession hmay hexec rfl
    have hdoing : s.doing sid = some o := by simp [Sys.doing, hsession]
    refine ⟨γ sid, ⟨rfl, haware.answers hexec⟩, ?_⟩
    rw [update_eq_self]
    refine haware.cons ?_ (by simp) fun other => setSession_ne_none
    refine haware.sound.exec (Event.does_run hsession) rfl hmay (fun key value hstore => ?_) hexec
    exact hfresh sid choice key value rfl (by rw [hdoing, hstore])
  drop := by
    rintro history s γ sid call p t haware - hsession rfl
    refine haware.cons ?_ (by simp) fun other => setSession_ne_none
    exact haware.sound.quiet (by simp [Event.does]) (by simp [Event.does]) haware.sound.kept rfl
  env := by
    rintro history s γ elapsed t haware - rfl
    refine haware.cons ?_ (by simp) fun other hother => hother
    exact haware.sound.quiet (by simp [Event.does]) (by simp [Event.does]) haware.sound.kept rfl

structure Blank (s : Console) : Prop where
  sessions : ∀ sid, s.sessions sid = none
  cache : ∀ key, s.state.cache key = none

theorem Blank.aware (hblank : Blank s) : Aware [] s fun _ => [] where
  sound :=
    { kept := fun key entry hentry => by rw [hblank.cache key] at hentry; cases hentry
      applied_le := fun sid slug n hn => by cases hn
      finished_le := fun slug n hn => by cases hn }
  known _ := List.Subset.refl _
  since earlier e sid call hsuffix := by simp at hsuffix
  started earlier e sid call hsuffix := by simp at hsuffix

/-- As long as nothing outdated is put into the map, a read shows every mutation that was over when it
began. -/
theorem reads_own_writes (documents : Documents) {s t : Console} {history : List Happening}
    (hblank : Blank s) (hrun : Run (machine documents) Fresh s history t) {sid : Nat} {value : Value}
    (hreturned : t.returned sid = some (.ok value)) {earlier : List Happening} {e : Happening}
    {call : Call} (hstart : e :: earlier <:+ history) (hcall : e.action = .start sid call) :
    Current (finished earlier) value := by
  have hcalls : ∀ (history : List Happening) call, ((machine documents).process call).Meets contract
      (finished history) fun k r => ∀ value, r = .ok value → Current k value := by
    intro history call
    refine meets_run.mpr (meets_mono ?_ (fun _ _ h => h)
      (meets_handler documents call fun k e value hvalue => nomatch hvalue))
    rintro k value hcurrent _ ⟨⟩
    exact hcurrent
  have hinit : Meeting contract (fun (_ : Call) k r => ∀ value, r = .ok value → Current k value) s
      fun _ => [] := by
    intro sid call p hsession
    rw [hblank.sessions sid] at hsession
    cases hsession
  obtain ⟨γ, haware, hmeeting⟩ :=
    (keeps_aware documents).run_induct hcalls ⟨_, hblank.aware, hinit⟩ hrun
  obtain ⟨served, hsession⟩ := Sys.returned_eq_some.mp hreturned
  have hanswer := hmeeting sid served _ hsession
  rw [← haware.since earlier e sid call hstart hcall]
  exact hanswer value rfl

def noDocuments : Documents where
  nextUpcomingShowSlug _ := none
  showFanOutTargets _ := none
  hasSteps _ := true

def oneTenant : Console where
  state :=
    { clock := 0
      cache := fun _ => none
      tenants := ["acme"]
      version := fun _ => 0 }
  sessions _ := none

theorem blank_oneTenant : Blank oneTenant := ⟨fun _ => rfl, fun _ => rfl⟩

def runs (sid steps : Nat) : List (Action Choice Nat Call) :=
  List.replicate steps (.run sid ⟨true, [("acme", "/v1/control-plane/audience/city-venues")]⟩)

def inTurn : List (Action Choice Nat Call) :=
  .start 0 (.mutate .change "acme") :: runs 0 2 ++ .start 1 (.placesRooms "acme") :: runs 1 7

/-- The rooms are fetched, the tenant is changed, and what was fetched is put into the map; then another
reads the rooms. -/
def overtaken : List (Action Choice Nat Call) :=
  .start 1 (.placesRooms "acme") :: runs 1 6 ++ .start 0 (.mutate .change "acme") :: runs 0 2 ++
    runs 1 1 ++ .start 2 (.placesRooms "acme") :: runs 2 1

def outset (sid : Nat) : List Happening → Option (List Happening)
  | [] => none
  | e :: earlier =>
    match e.action with
    | .start other _ => if other = sid then some earlier else outset sid earlier
    | _ => outset sid earlier

theorem start_of_outset {earlier : List Happening} (houtset : outset sid history = some earlier) :
    ∃ e call, e :: earlier <:+ history ∧ e.action = .start sid call := by
  induction history with
  | nil => cases houtset
  | cons e rest ih =>
    rw [outset] at houtset
    split at houtset
    · rename_i other call haction
      split_ifs at houtset with heq
      · obtain rfl := some.inj houtset
        exact ⟨e, call, suffix_rfl, by rw [haction, heq]⟩
      · obtain ⟨e', call', hsuffix, hstart⟩ := ih houtset
        exact ⟨e', call', hsuffix.trans (suffix_cons _ _), hstart⟩
    · obtain ⟨e', call', hsuffix, hstart⟩ := ih houtset
      exact ⟨e', call', hsuffix.trans (suffix_cons _ _), hstart⟩

def shown (s : Console) (sid : Nat) : Option Value :=
  match s.returned sid with
  | some (.ok value) => some value
  | _ => none

theorem returned_of_shown (hshown : shown s sid = some value) :
    s.returned sid = some (.ok value) := by
  unfold shown at hshown
  split at hshown
  · rename_i found hreturned
    rw [hreturned, some.inj hshown]
  · cases hshown

def rooms (version : Nat) : Value := [⟨"acme", "/v1/control-plane/audience/city-venues", some version⟩]

theorem reads_own_writes_in_turn :
    ∃ history t earlier e call, Run (machine noDocuments) Fresh oneTenant history t ∧
      e :: earlier <:+ history ∧ e.action = .start 1 call ∧ finished earlier = [("acme", 1)] ∧
      t.returned 1 = some (.ok (rooms 1)) ∧ Current (finished earlier) (rooms 1) := by
  have hrecord : ((record (machine noDocuments) [] oneTenant inTurn).any fun p =>
      decide (Permitted Fresh p.1) && (outset 1 p.1).any (fun earlier => finished earlier = [("acme", 1)]) &&
        shown p.2 1 = some (rooms 1)) = true := by decide
  obtain ⟨⟨history, t⟩, hrecord, hcheck⟩ := (Option.any_eq_true _ _).mp hrecord
  simp only [Bool.and_eq_true, decide_eq_true_eq, Option.any_eq_true] at hcheck
  obtain ⟨⟨hpermitted, earlier, houtset, hfinished⟩, hshown⟩ := hcheck
  obtain ⟨e, call, hsuffix, hstart⟩ := start_of_outset houtset
  have hrun := run_of_record .nil hrecord hpermitted
  have hreturned := returned_of_shown hshown
  exact ⟨history, t, earlier, e, call, hrun, hsuffix, hstart, hfinished, hreturned,
    reads_own_writes noDocuments blank_oneTenant hrun hreturned hsuffix hstart⟩

/-- A value that was fetched before a mutation is answered to a read that begins after it. -/
theorem answered_stale :
    ∃ history t earlier e call, Blank oneTenant ∧
      Run (machine noDocuments) (fun _ _ _ => True) oneTenant history t ∧
      e :: earlier <:+ history ∧ e.action = .start 2 call ∧ finished earlier = [("acme", 1)] ∧
      t.returned 2 = some (.ok (rooms 0)) ∧ ¬ Current (finished earlier) (rooms 0) := by
  have hrecord : ((record (machine noDocuments) [] oneTenant overtaken).any fun p =>
      (outset 2 p.1).any (fun earlier => finished earlier = [("acme", 1)]) &&
        shown p.2 2 = some (rooms 0)) = true := by decide
  obtain ⟨⟨history, t⟩, hrecord, hcheck⟩ := (Option.any_eq_true _ _).mp hrecord
  simp only [Bool.and_eq_true, decide_eq_true_eq, Option.any_eq_true] at hcheck
  obtain ⟨⟨earlier, houtset, hfinished⟩, hshown⟩ := hcheck
  obtain ⟨e, call, hsuffix, hstart⟩ := start_of_outset houtset
  refine ⟨history, t, earlier, e, call, blank_oneTenant,
    run_of_record .nil hrecord (permitted_of_forall (fun _ _ _ => trivial) _), hsuffix, hstart, hfinished, returned_of_shown hshown, ?_⟩
  rw [hfinished]
  decide

end ControlPlane.ReadModels
