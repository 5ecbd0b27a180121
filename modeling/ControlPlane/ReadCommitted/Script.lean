import ControlPlane.ReadCommitted.Serial
import ControlPlane.ReadCommitted.Spares

/-!
# Sessions that follow a script

A script is an automaton over the phases of a session: how each of its operations may move the rows
it is about, whatever the others have done in between. That a program follows it is checked on the
program alone; an invariant then only has to be kept by the moves, by deaths and by time.
-/

namespace ReadCommitted

open Function Option Prog

variable {Key : Type} {Row : Key → Type} {Index Req Resp Upstream Call ε α β G : Type}
  {S : Schema Row Index Req Resp Upstream} {sid : Nat} {sh sh' : Shared Row Index Upstream}
  {tx tx' : Txn Row} {o : Op Row Req} {key : Key} {K : Key → Prop} {ends : Bool}
  {V : Server Row Index Req Resp Upstream Call α} {s t : Sys Row Index Req Resp Upstream Call α}
  {session : Session Row Req Resp Call α} {other : Nat} {call : Call} {γ : Nat → G} {g : G}

theorem Op.Spares.mono (hspares : o.Spares K ends) : o.Spares K true := by
  cases o <;> first | exact hspares | rfl

def Sys.Live (s : Sys Row Index Req Resp Upstream Call α) (sid : Nat) (tx : Txn Row) : Prop :=
  ∃ call p, s.sessions sid = some ⟨call, some p, tx⟩

theorem Sys.Live.cases (hlive : (s.setSession sid session sh).Live other tx) :
    other = sid ∧ session.txn = tx ∧ session.prog.isSome = true ∨ other ≠ sid ∧ s.Live other tx := by
  obtain ⟨call, p, hsession⟩ := hlive
  obtain ⟨rfl, rfl⟩ | ⟨heq, hsession⟩ := setSession_eq_some.mp hsession
  · exact .inl ⟨rfl, rfl, rfl⟩
  · exact .inr ⟨heq, call, p, hsession⟩

def Sys.InFlight (s : Sys Row Index Req Resp Upstream Call α) (sid : Nat) (tx : Txn Row) : Prop :=
  ∃ call o next, s.sessions sid = some ⟨call, some (.op o next), tx⟩

theorem Sys.InFlight.live (hflight : s.InFlight sid tx) : s.Live sid tx := by
  obtain ⟨call, o, next, hsession⟩ := hflight
  exact ⟨call, _, hsession⟩

theorem Sys.InFlight.cases (hflight : (s.setSession sid session sh).InFlight other tx) :
    other = sid ∧ session.txn = tx ∧ session.prog.isSome = true ∨
      other ≠ sid ∧ s.InFlight other tx := by
  obtain ⟨hself, hrest⟩ | ⟨hother, -⟩ := hflight.live.cases
  · exact .inl ⟨hself, hrest⟩
  · obtain ⟨call, o, next, hsession⟩ := hflight
    rw [setSession_of_ne hother] at hsession
    exact .inr ⟨hother, call, o, next, hsession⟩

theorem Sys.InFlight.before_crash
    (hflight : (s.setSession sid ⟨call, none, tx'⟩ sh).InFlight other tx) : s.InFlight other tx := by
  obtain ⟨call', o, next, hsession⟩ := hflight
  obtain ⟨-, ⟨⟩⟩ | ⟨-, hsession⟩ := setSession_eq_some.mp hsession
  exact ⟨call', o, next, hsession⟩

/-- Every live session is in a phase that suits its call. -/
def Suited (P : Call → G → Prop) (s : Sys Row Index Req Resp Upstream Call α) (γ : Nat → G) : Prop :=
  ∀ sid call p tx, s.sessions sid = some ⟨call, some p, tx⟩ → P call (γ sid)

variable {P : Call → G → Prop}

theorem Suited.setSession (hsuited : Suited P s γ)
    (hself : session.prog.isSome = true → P session.call g) :
    Suited P (s.setSession sid session sh) (update γ sid g) := by
  intro other call p tx hsession
  obtain ⟨rfl, rfl⟩ | ⟨heq, hsession⟩ := setSession_eq_some.mp hsession
  · rw [update_self]
    exact hself rfl
  · rw [update_of_ne heq]
    exact hsuited other call p tx hsession

theorem Suited.crash (hsuited : Suited P s γ) :
    Suited P (s.setSession sid ⟨call, none, tx⟩ sh) γ := by
  have hset : Suited P (s.setSession sid ⟨call, none, tx⟩ sh) (update γ sid (γ sid)) :=
    hsuited.setSession (by simp)
  rwa [update_eq_self] at hset

structure Scene (Row : Key → Type) (Upstream : Type) where
  committed : AList Row
  upstream : Upstream
  clock : Instant
  nextId : Nat
  mine : Key → Prop
  start : Instant
  writes : AList Row
  saved : AList Row

namespace Scene

def of (sid : Nat) (sh : Shared Row Index Upstream) (tx : Txn Row) : Scene Row Upstream where
  committed := sh.committed
  upstream := sh.upstream
  clock := sh.clock
  nextId := sh.nextId
  mine key := sh.locks key = some sid
  start := tx.start
  writes := tx.writes
  saved := tx.saved

def holding (c : Scene Row Upstream) (key : Key) : Scene Row Upstream :=
  { c with mine := fun k => k = key ∨ c.mine k }

/-- A row that is found is locked. -/
def found (c : Scene Row Upstream) (key : Key) : Option (Row key) → Scene Row Upstream
  | some _ => c.holding key
  | none => c


def begun (c : Scene Row Upstream) : Scene Row Upstream := { c with start := c.clock }


def dropping (c : Scene Row Upstream) : Scene Row Upstream :=
  { c with mine := fun _ => False, writes := ∅ }

@[simp]
theorem found_writes (c : Scene Row Upstream) (row : Option (Row key)) :
    (c.found key row).writes = c.writes := by cases row <;> rfl

theorem of_settle {db writes saved : AList Row} :
    Scene.of sid (settle sid sh db) { tx with writes := writes, saved := saved } =
      { Scene.of sid sh tx with
        committed := db, mine := fun _ => False, writes := writes, saved := saved } := by
  have hmine : (fun k => release sh.locks sid k = some sid) = fun _ => False := by
    simp [release_eq_some_iff]
  simp only [Scene.of, settle, hmine]

end Scene

variable [DecidableEq Key]

namespace Scene

def seen (c : Scene Row Upstream) : AList Row := c.writes ∪ c.committed

def put (c : Scene Row Upstream) (key : Key) (row : Row key) : Scene Row Upstream :=
  { c.holding key with writes := c.writes.insert key row }

def committing (c : Scene Row Upstream) : Scene Row Upstream :=
  { c with committed := c.seen, mine := fun _ => False, writes := ∅, saved := c.writes }

@[simp]
theorem lookup_seen (c : Scene Row Upstream) (key : Key) :
    c.seen.lookup key = (c.writes.lookup key).or (c.committed.lookup key) :=
  lookup_union _ _ _

@[simp]
theorem lookup_committing (c : Scene Row Upstream) (key : Key) :
    c.committing.committed.lookup key = (c.writes.lookup key).or (c.committed.lookup key) :=
  lookup_union _ _ _

theorem locked_update (locks : Key → Option Nat) (key : Key) :
    (fun k => update locks key (some sid) k = some sid) =
      fun k => k = key ∨ locks k = some sid := by
  funext k
  by_cases heq : k = key <;> simp [heq]

theorem of_lock (key : Key) :
    Scene.of sid { sh with locks := update sh.locks key (some sid) } tx =
      (Scene.of sid sh tx).holding key := by
  simp only [Scene.of, Scene.holding, locked_update]

theorem of_place [DecidableEq Index] {old : Option (Row key)} {row : Row key} :
    Scene.of sid (place S sid sh tx key old row).1 (place S sid sh tx key old row).2 =
      (Scene.of sid sh tx).put key row := by
  simp only [Scene.of, place, Scene.put, Scene.holding, locked_update]

end Scene

/-- What an operation does to the scene of its session, and what it answers. -/
def Op.Acts (S : Schema Row Index Req Resp Upstream) (c : Scene Row Upstream) :
    (o : Op Row Req) → o.Result Resp → Scene Row Upstream → Prop
  | .begin, _, c' => c' = c.begun
  | .commit, _, c' => c' = c.committing
  | .rollback, _, c' => c' = c.dropping
  | .utcNow, answer, c' => answer = c.clock ∧ c' = c
  | .sqlNow, answer, c' => answer = c.start ∧ c' = c
  | .fresh, answer, c' => answer = c.nextId ∧ c' = { c with nextId := c.nextId + 1 }
  | .snapshot, answer, c' => answer = c.seen ∧ c' = c
  | .shuffle keys, answer, c' => answer.Perm keys ∧ c' = c
  | .lock key, answer, c' => answer = c.seen.lookup key ∧ c' = c.found key answer
  | .skipLocked key, answer, c' =>
    (answer = c.seen.lookup key ∨ answer = none) ∧ c' = c.found key answer
  | .write key row, answer, c' =>
    answer = .ok () ∧ c' = c.put key row ∨ (∃ e, answer = .error e) ∧ c' = c
  | .insert key row, answer, c' =>
    answer = .ok true ∧ key ∉ c.seen ∧ c' = c.put key (row c.seen) ∨
    answer = .ok false ∧ (key ∈ c.seen ∨ (S.index key (row c.seen)).isSome = true) ∧ c' = c ∨
    answer = .error .check ∧ S.check key (row c.seen) = false ∧ c' = c
  | .upsert key row update, answer, c' =>
    answer = .ok ((c.seen.lookup key).elim row update) ∧
      c' = c.put key ((c.seen.lookup key).elim row update) ∨
    (∃ e, answer = .error e) ∧ c' = c
  | .request req, answer, c' =>
    ∃ upstream', Served S req c.upstream answer upstream' ∧ c' = { c with upstream := upstream' }

/-- Where an operation leads the scene, its answer aside. -/
inductive Op.Leads (c : Scene Row Upstream) : Op Row Req → Scene Row Upstream → Prop
  | begin : Leads c .begin c.begun
  | commit : Leads c .commit c.committing
  | rollback : Leads c .rollback c.dropping
  | request (req : Req) (upstream : Upstream) :
      Leads c (.request req) { c with upstream := upstream }
  | stay (o : Op Row Req) : Leads c o c
  | fresh : Leads c .fresh { c with nextId := c.nextId + 1 }
  | hold (o : Op Row Req) (key : Key) : Leads c o (c.holding key)
  | put (o : Op Row Req) (key : Key) (row : Row key)
      (hspares : ∀ K ends, o.Spares K ends → ¬ K key) : Leads c o (c.put key row)

variable {answer : o.Result Resp} {c c' : Scene Row Upstream}

theorem Op.Acts.leads (hacts : o.Acts S c answer c') : Leads c o c' := by
  have hfound (o : Op Row Req) (key : Key) (row : Option (Row key)) : Leads c o (c.found key row) := by
    cases row with
    | none => exact .stay o
    | some row => exact .hold o key
  cases o with
  | begin => exact hacts ▸ .begin
  | commit => exact hacts ▸ .commit
  | rollback => exact hacts ▸ .rollback
  | utcNow | sqlNow | snapshot | shuffle keys => exact hacts.2 ▸ .stay _
  | fresh => exact hacts.2 ▸ .fresh
  | lock key | skipLocked key => exact hacts.2 ▸ hfound _ key answer
  | write key row | upsert key row update =>
    obtain ⟨-, rfl⟩ | ⟨-, rfl⟩ := hacts
    · exact .put _ key _ fun _ _ h => h
    · exact .stay _
  | insert key row =>
    obtain ⟨-, -, rfl⟩ | ⟨-, -, rfl⟩ | ⟨-, -, rfl⟩ := hacts
    · exact .put _ key _ fun _ _ h => h
    all_goals exact .stay _
  | request req =>
    obtain ⟨upstream', -, rfl⟩ := hacts
    exact .request req upstream'

theorem Op.Acts.committed (hacts : o.Acts S c answer c') (hcommit : o ≠ .commit) :
    c'.committed = c.committed := by
  cases hacts.leads with
  | commit => exact absurd rfl hcommit
  | _ => rfl

theorem check_eq_false [DecidableEq Index] {old : Option (Row key)} {row : Row key}
    (hverdict : verdict S sid sh tx key old row = .refuse .check) : S.check key row = false := by
  by_contra hcheck
  rw [verdict, if_pos (by simpa using hcheck)] at hverdict
  split at hverdict
  · simp at hverdict
  · split_ifs at hverdict
    simp at hverdict

theorem exec_acts [DecidableEq Index] {choice : Choice Key}
    (hexec : o.exec S sid choice sh tx = some (answer, sh', tx')) :
    o.Acts S (.of sid sh tx) answer (.of sid sh' tx') := by
  cases Op.did hexec with
  | begin => rfl
  | commit | rollback => exact Scene.of_settle
  | utcNow | sqlNow | fresh | snapshot => exact ⟨rfl, rfl⟩
  | shuffle hperm => exact ⟨hperm, rfl⟩
  | lockNone hnone => exact ⟨hnone.symm, rfl⟩
  | lock hrow => exact ⟨hrow.symm, Scene.of_lock _⟩
  | skip => exact ⟨.inr rfl, rfl⟩
  | take hrow => exact ⟨.inl hrow.symm, Scene.of_lock _⟩
  | write => exact .inl ⟨rfl, Scene.of_place⟩
  | insert _ hmem => exact .inl ⟨rfl, hmem, Scene.of_place⟩
  | conflict hconflict =>
    refine .inr (.inl ⟨rfl, hconflict.symm.imp_right fun hrefused => ?_, rfl⟩)
    exact index_of_verdict hrefused (by simp) (by simp)
  | insertError hverdict => exact .inr (.inr ⟨rfl, check_eq_false hverdict, rfl⟩)
  | upsert hold hnew =>
    subst hold hnew
    exact .inl ⟨rfl, Scene.of_place⟩
  | writeError | unchecked | upsertError => exact .inr ⟨⟨_, rfl⟩, rfl⟩
  | request hserved => exact ⟨_, hserved, rfl⟩

structure Script (Row : Key → Type) (Req Upstream G : Type) where
  known : G → Scene Row Upstream → Prop
  move : G → Op Row Req → Scene Row Upstream → G → Scene Row Upstream → Prop

/-- The script of sessions that only have to keep what they know true. -/
def Script.keeping (known : G → Scene Row Upstream → Prop) : Script Row Req Upstream G where
  known := known
  move g _ c g' c' := known g c → known g' c'

/-- A session in the phase may commit its writes, and is then in a phase of `P`. -/
def Script.Commits (T : Script Row Req Upstream G) (g : G) (w : AList Row) (P : G → Prop) : Prop :=
  ∀ c, T.known g c → c.writes = w → ∃ g', T.move g .commit c g' c.committing ∧ P g'

def Script.Drops (T : Script Row Req Upstream G) (g : G) (w : AList Row) (P : G → Prop) : Prop :=
  ∀ c, T.known g c → c.writes = w → ∃ g', T.move g .rollback c g' c.dropping ∧ P g'

/-- Whatever the others do between its operations, the program moves as the script says. -/
def Prog.Follows (S : Schema Row Index Req Resp Upstream) (T : Script Row Req Upstream G) :
    Prog Row Req Resp α → AList Row → G → (α → AList Row → G → Prop) → Prop
  | .ret value, w, g, Q => Q value w g
  | .op o next, w, g, Q => ∀ c answer c', T.known g c → c.writes = w → o.Acts S c answer c' →
      ∃ g', T.move g o c g' c' ∧ (next answer).Follows S T c'.writes g' Q

variable {T : Script Row Req Upstream G} {w w' : AList Row} {Q : α → AList Row → G → Prop}
  {p : Prog Row Req Resp α} {calm : G → Prop}

theorem Prog.follows_ret {value : α} :
    (.ret value : Prog Row Req Resp α).Follows S T w g Q ↔ Q value w g := Iff.rfl

theorem Prog.follows_mono {Q' : α → AList Row → G → Prop} (hQ : ∀ a w' g', Q a w' g' → Q' a w' g') :
    ∀ {w g}, p.Follows S T w g Q → p.Follows S T w g Q' := by
  induction p with
  | ret value => exact fun hp => hQ _ _ _ hp
  | op o next ih =>
    intro w g hp c answer c' hknown hwrites hacts
    obtain ⟨g', hmove, hnext⟩ := hp c answer c' hknown hwrites hacts
    exact ⟨g', hmove, ih answer hnext⟩

theorem Prog.follows_bind {f : α → Prog Row Req Resp β} {Q : β → AList Row → G → Prop} :
    ∀ {w g}, p.Follows S T w g (fun a w' g' => (f a).Follows S T w' g' Q) →
      (p >>= f).Follows S T w g Q := by
  induction p with
  | ret value => exact fun hp => hp
  | op o next ih =>
    intro w g hp c answer c' hknown hwrites hacts
    obtain ⟨g', hmove, hnext⟩ := hp c answer c' hknown hwrites hacts
    exact ⟨g', hmove, ih answer hnext⟩

/-- Nothing of `K` differs between the scenes, nor does the service. -/
structure SameOn (K : Key → Prop) (c c' : Scene Row Upstream) : Prop where
  committed : ∀ key, K key → c'.committed.lookup key = c.committed.lookup key
  writes : ∀ key, K key → c'.writes.lookup key = c.writes.lookup key
  upstream : c'.upstream = c.upstream

theorem SameOn.refl (c : Scene Row Upstream) : SameOn K c c :=
  ⟨fun _ _ => rfl, fun _ _ => rfl, rfl⟩

/-- In every phase a session may do what leaves `K` alone. Only in a calm phase may it lose sight of
what it last committed. -/
def Script.Ignores (T : Script Row Req Upstream G) (K : Key → Prop) (calm : G → Prop) : Prop :=
  ∀ g o c c', o.Spares K true → SameOn K c c' → c'.saved = c.saved ∨ calm g → T.move g o c g c'

/-- In the phase a session may do what stays within its transaction and leaves `K` alone. -/
def Script.PassesAt (S : Schema Row Index Req Resp Upstream) (T : Script Row Req Upstream G)
    (K : Key → Prop) (g : G) : Prop :=
  ∀ o c answer c', T.known g c → o.Spares K false → o.Acts S c answer c' → T.move g o c g c'

def Script.Passes (S : Schema Row Index Req Resp Upstream) (T : Script Row Req Upstream G)
    (K : Key → Prop) : Prop :=
  ∀ g, T.PassesAt S K g

def FreeOf (K : Key → Prop) (w : AList Row) : Prop := ∀ key, K key → w.lookup key = none

theorem FreeOf.empty : FreeOf K (∅ : AList Row) := fun _ _ => rfl

def AgreeOn (K : Key → Prop) (w w' : AList Row) : Prop := ∀ key, K key → w'.lookup key = w.lookup key

theorem FreeOf.agreeOn (hfree : FreeOf K w) (hagree : AgreeOn K w w') : FreeOf K w' :=
  fun key hkey => (hagree key hkey).trans (hfree key hkey)

theorem sameOn_put {row : Row key} (hkey : ¬ K key) : SameOn K c (c.put key row) := by
  refine ⟨fun _ _ => rfl, fun k hk => AList.lookup_insert_ne ?_, rfl⟩
  rintro rfl
  exact hkey hk

/-- An operation that spares `K` leaves it as it is, if what it ends has not written to `K`. -/
theorem sameOn_of_acts (hspares : o.Spares K ends) (hacts : o.Acts S c answer c')
    (hfree : ends = true → FreeOf K c.writes) :
    SameOn K c c' ∧ (c'.saved = c.saved ∨ ends = true) := by
  cases hacts.leads with
  | commit =>
    have hfree := hfree hspares
    refine ⟨⟨fun key hkey => ?_, fun key hkey => (hfree key hkey).symm, rfl⟩, .inr hspares⟩
    rw [Scene.committing, Scene.lookup_seen, hfree key hkey, none_or]
  | rollback => exact ⟨⟨fun _ _ => rfl, fun key hkey => (hfree hspares key hkey).symm, rfl⟩, .inl rfl⟩
  | request => exact hspares.elim
  | put _ key row hkey => exact ⟨sameOn_put (hkey K ends hspares), .inl rfl⟩
  | begin | stay | fresh | hold => exact ⟨⟨fun _ _ => rfl, fun _ _ => rfl, rfl⟩, .inl rfl⟩

theorem Script.Ignores.passes (hignores : T.Ignores K calm) : T.Passes S K := by
  intro g o c answer c' _ hspares hacts
  obtain ⟨hsame, hsaved⟩ := sameOn_of_acts hspares hacts (by simp)
  exact hignores g o c c' hspares.mono hsame (.inl (by simpa using hsaved))

theorem Prog.follows_of_spares (hignores : T.Ignores K calm) (hcalm : calm g)
    (hQ : ∀ a w', FreeOf K w' → Q a w' g) :
    ∀ {w}, p.Spares K true → FreeOf K w → p.Follows S T w g Q := by
  induction p with
  | ret value => exact fun _ hfree => hQ value _ hfree
  | op o next ih =>
    intro w hspares hfree c answer c' hknown hwrites hacts
    subst hwrites
    obtain ⟨hsame, -⟩ := sameOn_of_acts hspares.1 hacts fun _ => hfree
    refine ⟨g, hignores g o c c' hspares.1 hsame (.inr hcalm), ih answer (hspares.2 answer) ?_⟩
    exact fun key hkey => (hsame.writes key hkey).trans (hfree key hkey)

theorem Prog.follows_of_stays (hpasses : T.PassesAt S K g) :
    ∀ {w}, (∀ a w', AgreeOn K w w' → Q a w' g) → p.Spares K false → p.Follows S T w g Q := by
  induction p with
  | ret value => exact fun hQ _ => hQ value _ fun _ _ => rfl
  | op o next ih =>
    intro w hQ hspares c answer c' hknown hwrites hacts
    subst hwrites
    obtain ⟨hsame, -⟩ := sameOn_of_acts hspares.1 hacts (by simp)
    refine ⟨g, hpasses o c answer c' hknown hspares.1 hacts,
      ih answer (fun a w' hagree => hQ a w' ?_) (hspares.2 answer)⟩
    exact fun key hkey => (hagree key hkey).trans (hsame.writes key hkey)

theorem Prog.follows_of_forall (hmove : ∀ o c c', T.move g o c g c') (hQ : ∀ a w, Q a w g) :
    ∀ {w}, p.Follows S T w g Q := by
  induction p with
  | ret value => exact hQ value _
  | op o next ih => exact fun c answer c' _ _ _ => ⟨g, hmove o c c', ih answer⟩

theorem Prog.follows_of_closed {P : G → Prop}
    (hmove : ∀ g o c c', P g → ∃ g', P g' ∧ T.move g o c g' c') (hQ : ∀ a w g, P g → Q a w g) :
    ∀ {w g}, P g → p.Follows S T w g Q := by
  induction p with
  | ret value => exact hQ value _ _
  | op o next ih =>
    intro w g hg c answer c' _ _ _
    obtain ⟨g', hg', hmove'⟩ := hmove g o c c' hg
    exact ⟨g', hmove', ih answer hg'⟩

namespace Handler

def Follows (S : Schema Row Index Req Resp Upstream) (T : Script Row Req Upstream G)
    (h : Handler Row Req Resp ε α) (w : AList Row) (g : G) (Q : α → AList Row → G → Prop)
    (E : ε → AList Row → G → Prop) : Prop :=
  Prog.Follows S T h.run w g fun r w' g' =>
    match r with
    | .ok a => Q a w' g'
    | .error e => E e w' g'

variable {E : ε → AList Row → G → Prop} {h : Handler Row Req Resp ε α}

theorem follows_run {R : Except ε α → AList Row → G → Prop}
    (hfollows : Follows S T h w g (fun a => R (.ok a)) fun e => R (.error e)) :
    h.run.Follows S T w g R :=
  follows_mono (fun r _ _ hr => by cases r <;> exact hr) hfollows

section Ending

variable (hignores : T.Ignores K calm) {P : G → Prop}
include hignores

theorem drops (hfree : FreeOf K w) (hP : P g) : T.Drops g w P := by
  intro c _ hwrites
  refine ⟨g, hignores g .rollback c c.dropping rfl ⟨fun _ _ => rfl, fun key hkey => ?_, rfl⟩
    (.inl rfl), hP⟩
  rw [hwrites, hfree key hkey]
  rfl

theorem commits (hcalm : calm g) (hfree : FreeOf K w) (hP : P g) : T.Commits g w P := by
  intro c _ hwrites
  refine ⟨g, hignores g .commit c c.committing rfl ⟨fun key hkey => ?_, fun key hkey => ?_, rfl⟩
    (.inr hcalm), hP⟩
  · rw [Scene.lookup_committing, hwrites, hfree key hkey, none_or]
  · rw [hwrites, hfree key hkey]
    rfl

end Ending

namespace Follows

theorem mono {Q' : α → AList Row → G → Prop} {E' : ε → AList Row → G → Prop}
    (hQ : ∀ a w' g', Q a w' g' → Q' a w' g') (hE : ∀ e w' g', E e w' g' → E' e w' g')
    (hfollows : Follows S T h w g Q E) : Follows S T h w g Q' E' := by
  refine follows_mono (fun r w' g' hr => ?_) hfollows
  cases r with
  | ok a => exact hQ a w' g' hr
  | error e => exact hE e w' g' hr

theorem pure {a : α} (hQ : Q a w g) :
    Follows S T (Pure.pure a : Handler Row Req Resp ε α) w g Q E := hQ

variable {e : ε}

theorem throw (hE : E e w g) : Follows S T (throw e : Handler Row Req Resp ε α) w g Q E := hE

theorem bind {f : α → Handler Row Req Resp ε β} {Q : β → AList Row → G → Prop}
    (hfollows : Follows S T h w g (fun a w' g' => Follows S T (f a) w' g' Q E) E) :
    Follows S T (h >>= f) w g Q E := by
  refine follows_bind (follows_mono (fun r w' g' hr => ?_) hfollows)
  cases r <;> exact hr

theorem map {f : α → β} {Q : β → AList Row → G → Prop}
    (hfollows : Follows S T h w g (fun a w' g' => Q (f a) w' g') E) :
    Follows S T (f <$> h) w g Q E := by
  refine follows_bind (follows_mono (fun r w' g' hr => ?_) hfollows)
  cases r <;> exact hr

theorem ask {Q : o.Result Resp → AList Row → G → Prop}
    (ho : ∀ c answer c', T.known g c → c.writes = w → o.Acts S c answer c' →
      ∃ g', T.move g o c g' c' ∧ Q answer c'.writes g') :
    Follows S T (Handler.ask o : Handler Row Req Resp ε _) w g Q E := ho

theorem ensure {condition : Prop} [Decidable condition] {Q : Unit → AList Row → G → Prop}
    (hQ : condition → Q () w g) (hE : ¬ condition → E e w g) :
    Follows S T (Handler.ensure condition e : Handler Row Req Resp ε Unit) w g Q E := by
  unfold Handler.ensure
  split_ifs with hcond
  · exact hQ hcond
  · exact hE hcond

theorem okOr {value : Option α} (hQ : ∀ a, value = some a → Q a w g) (hE : value = none → E e w g) :
    Follows S T (Handler.okOr value e : Handler Row Req Resp ε α) w g Q E := by
  cases value with
  | none => exact hE rfl
  | some a => exact hQ a rfl

theorem require {value : Except ε α} (hQ : ∀ a, value = .ok a → Q a w g)
    (hE : ∀ e, value = .error e → E e w g) :
    Follows S T (Handler.require value : Handler Row Req Resp ε α) w g Q E := by
  cases value with
  | ok a => exact hQ a rfl
  | error e => exact hE e rfl

theorem required {value : Except ε α} {a : α} (hvalue : value = .ok a) (hQ : Q a w g) :
    Follows S T (Handler.require value : Handler Row Req Resp ε α) w g Q E := by
  subst hvalue
  exact hQ

theorem mapErr {f : ε → ε}
    (hfollows : Follows S T h w g Q fun e w' g' => E (f e) w' g') :
    Follows S T (Handler.mapErr f h) w g Q E := by
  refine follows_bind (follows_mono (fun r w' g' hr => ?_) hfollows)
  cases r <;> exact hr

theorem whenever {condition : Prop} [Decidable condition]
    {body : Handler Row Req Resp ε Unit} {Q : Unit → AList Row → G → Prop}
    (hbody : condition → Follows S T body w g Q E) (hQ : ¬ condition → Q () w g) :
    Follows S T (Handler.whenever condition body) w g Q E := by
  unfold Handler.whenever
  split_ifs with hcond
  · exact hbody hcond
  · exact hQ hcond

theorem forSome {value : Option β} {body : β → Handler Row Req Resp ε Unit}
    {Q : Unit → AList Row → G → Prop} (hbody : ∀ b, value = some b → Follows S T (body b) w g Q E)
    (hQ : value = none → Q () w g) : Follows S T (Handler.forSome value body) w g Q E := by
  cases value with
  | none => exact hQ rfl
  | some b => exact hbody b rfl

theorem attempt {Q : Except ε α → AList Row → G → Prop}
    (hfollows : Follows S T h w g (fun a => Q (.ok a)) fun e => Q (.error e)) :
    Follows S T (Handler.attempt h) w g Q E := by
  refine follows_bind (follows_mono (fun r w' g' hr => ?_) hfollows)
  cases r <;> exact hr

theorem inTransaction
    (hbegin : ∀ c, T.known g c → c.writes = w → ∃ g', T.move g .begin c g' c.begun ∧
      Follows S T h w g' (fun a w' g' => T.Commits g' w' (Q a ∅))
        fun e w' g' => T.Drops g' w' (E e ∅)) :
    Follows S T (Handler.inTransaction h) w g Q E := by
  rintro c - c' hknown hwrites rfl
  obtain ⟨g', hmove, hbody⟩ := hbegin c hknown hwrites
  refine ⟨g', hmove, ?_⟩
  change Prog.Follows S T (h.run >>= _) c.begun.writes g' _
  rw [show c.begun.writes = w from hwrites]
  refine follows_bind (follows_mono (fun r w' g'' hr => ?_) hbody)
  cases r with
  | ok a =>
    rintro c - c' hknown hwrites rfl
    exact hr c hknown hwrites
  | error e =>
    rintro c - c' hknown hwrites rfl
    exact hr c hknown hwrites

theorem request {req : Req} {Q : Resp → AList Row → G → Prop}
    (hserved : ∀ c answer upstream', T.known g c → c.writes = w →
      Served S req c.upstream answer upstream' →
      ∃ g', T.move g (.request req) c g' { c with upstream := upstream' } ∧ Q answer w g') :
    Follows S T (Handler.request req : Handler Row Req Resp ε _) w g Q E := by
  rintro c answer c' hknown hwrites ⟨upstream', hserve, rfl⟩
  obtain ⟨g', hmove, hQ⟩ := hserved c answer upstream' hknown hwrites hserve
  exact ⟨g', hmove, hwrites ▸ hQ⟩

section Constraints

variable [OfConstraint ε]

theorem write {row : Row key} {Q : Unit → AList Row → G → Prop}
    (hok : ∀ c, T.known g c → c.writes = w →
      ∃ g', T.move g (.write key row) c g' (c.put key row) ∧ Q () (w.insert key row) g')
    (herror : ∀ c e, T.known g c → c.writes = w →
      ∃ g', T.move g (.write key row) c g' c ∧ E (OfConstraint.ofConstraint e) w g') :
    Follows S T (Handler.write key row : Handler Row Req Resp ε Unit) w g Q E := by
  refine .bind (.ask ?_)
  rintro c answer c' hknown hwrites (⟨rfl, rfl⟩ | ⟨⟨e, rfl⟩, rfl⟩)
  · obtain ⟨g', hmove, hQ⟩ := hok c hknown hwrites
    refine ⟨g', hmove, .pure ?_⟩
    simpa only [Scene.put, hwrites] using hQ
  · obtain ⟨g', hmove, hE⟩ := herror c' e hknown hwrites
    exact ⟨g', hmove, .throw (hwrites ▸ hE)⟩

theorem insert {row : AList Row → Row key} {Q : Bool → AList Row → G → Prop}
    (hnew : ∀ c, T.known g c → c.writes = w → key ∉ c.seen →
      ∃ g', T.move g (.insert key row) c g' (c.put key (row c.seen)) ∧
        Q true (w.insert key (row c.seen)) g')
    (hold : ∀ c, T.known g c → c.writes = w →
      key ∈ c.seen ∨ (S.index key (row c.seen)).isSome = true →
      ∃ g', T.move g (.insert key row) c g' c ∧ Q false w g')
    (herror : ∀ c, T.known g c → c.writes = w → S.check key (row c.seen) = false →
      ∃ g', T.move g (.insert key row) c g' c ∧ E (OfConstraint.ofConstraint .check) w g') :
    Follows S T (Handler.insert key row : Handler Row Req Resp ε Bool) w g Q E := by
  refine .bind (.ask ?_)
  rintro c answer c' hknown hwrites (⟨rfl, hmem, rfl⟩ | ⟨rfl, hmem, rfl⟩ | ⟨rfl, hcheck, rfl⟩)
  · obtain ⟨g', hmove, hQ⟩ := hnew c hknown hwrites hmem
    refine ⟨g', hmove, .pure ?_⟩
    simpa only [Scene.put, hwrites] using hQ
  · obtain ⟨g', hmove, hQ⟩ := hold c' hknown hwrites hmem
    exact ⟨g', hmove, .pure (hwrites ▸ hQ)⟩
  · obtain ⟨g', hmove, hE⟩ := herror c' hknown hwrites hcheck
    exact ⟨g', hmove, .throw (hwrites ▸ hE)⟩

theorem upsert {row : Row key} {update : Row key → Row key} {Q : Row key → AList Row → G → Prop}
    (hok : ∀ c, T.known g c → c.writes = w →
      ∃ g', T.move g (.upsert key row update) c g' (c.put key ((c.seen.lookup key).elim row update)) ∧
        Q ((c.seen.lookup key).elim row update)
          (w.insert key ((c.seen.lookup key).elim row update)) g')
    (herror : ∀ c e, T.known g c → c.writes = w →
      ∃ g', T.move g (.upsert key row update) c g' c ∧ E (OfConstraint.ofConstraint e) w g') :
    Follows S T (Handler.upsert key row update : Handler Row Req Resp ε (Row key)) w g Q E := by
  refine .bind (.ask ?_)
  rintro c answer c' hknown hwrites (⟨rfl, rfl⟩ | ⟨⟨e, rfl⟩, rfl⟩)
  · obtain ⟨g', hmove, hQ⟩ := hok c hknown hwrites
    refine ⟨g', hmove, .pure ?_⟩
    simpa only [Scene.put, hwrites] using hQ
  · obtain ⟨g', hmove, hE⟩ := herror c' e hknown hwrites
    exact ⟨g', hmove, .throw (hwrites ▸ hE)⟩

end Constraints

theorem of_spares (hignores : T.Ignores K calm) (hcalm : calm g) (hspares : Spares K true h)
    (hfree : FreeOf K w) (hQ : ∀ a w', FreeOf K w' → Q a w' g)
    (hE : ∀ e w', FreeOf K w' → E e w' g) : Follows S T h w g Q E := by
  refine follows_of_spares hignores hcalm (fun r w' hfree' => ?_) (spares_run.mpr hspares) hfree
  cases r with
  | ok a => exact hQ a w' hfree'
  | error e => exact hE e w' hfree'

section Passing

variable (hpasses : T.PassesAt S K g)
include hpasses

theorem of_stays (hspares : Spares K false h)
    (hQ : ∀ a w', AgreeOn K w w' → Q a w' g) (hE : ∀ e w', AgreeOn K w w' → E e w' g) :
    Follows S T h w g Q E := by
  refine follows_of_stays hpasses (fun r w' hagree => ?_) (spares_run.mpr hspares)
  cases r with
  | ok a => exact hQ a w' hagree
  | error e => exact hE e w' hagree

theorem pass {Q : o.Result Resp → AList Row → G → Prop} (ho : o.Spares K false)
    (hQ : ∀ c answer c', T.known g c → c.writes = w → o.Acts S c answer c' → Q answer c'.writes g) :
    Follows S T (Handler.ask o : Handler Row Req Resp ε _) w g Q E :=
  .ask fun c answer c' hknown hwrites hacts =>
    ⟨g, hpasses o c answer c' hknown ho hacts, hQ c answer c' hknown hwrites hacts⟩

theorem snapshot {Q : AList Row → AList Row → G → Prop}
    (hQ : ∀ c, T.known g c → c.writes = w → Q c.seen w g) :
    Follows S T (Handler.snapshot : Handler Row Req Resp ε _) w g Q E := by
  refine .pass hpasses trivial ?_
  rintro c _ _ hknown hwrites ⟨rfl, rfl⟩
  exact hwrites ▸ hQ _ hknown hwrites

theorem shuffle {keys : List Key} {Q : List Key → AList Row → G → Prop}
    (hQ : ∀ order, order.Perm keys → Q order w g) :
    Follows S T (Handler.shuffle keys : Handler Row Req Resp ε _) w g Q E := by
  refine .pass hpasses trivial ?_
  rintro c answer _ hknown hwrites ⟨hperm, rfl⟩
  exact hwrites ▸ hQ answer hperm

theorem lock {Q : Option (Row key) → AList Row → G → Prop}
    (hQ : ∀ c, T.known g c → c.writes = w → Q (c.seen.lookup key) w g) :
    Follows S T (Handler.lock key : Handler Row Req Resp ε _) w g Q E := by
  refine .pass hpasses trivial ?_
  rintro c _ _ hknown hwrites ⟨rfl, rfl⟩
  rw [Scene.found_writes, hwrites]
  exact hQ c hknown hwrites

theorem utcNow {Q : Instant → AList Row → G → Prop} (hQ : ∀ now, Q now w g) :
    Follows S T (Handler.utcNow : Handler Row Req Resp ε _) w g Q E := by
  refine .pass hpasses trivial ?_
  rintro c _ _ - hwrites ⟨rfl, rfl⟩
  exact hwrites ▸ hQ _

theorem fresh {Q : Nat → AList Row → G → Prop} (hQ : ∀ n, Q n w g) :
    Follows S T (Handler.fresh : Handler Row Req Resp ε _) w g Q E := by
  refine .pass hpasses trivial ?_
  rintro c _ _ - hwrites ⟨rfl, rfl⟩
  exact (show c.writes = w from hwrites) ▸ hQ _

theorem sqlNow {Q : Instant → AList Row → G → Prop}
    (hQ : ∀ c, T.known g c → c.writes = w → Q c.start w g) :
    Follows S T (Handler.sqlNow : Handler Row Req Resp ε _) w g Q E := by
  refine .pass hpasses trivial ?_
  rintro c _ _ hknown hwrites ⟨rfl, rfl⟩
  exact hwrites ▸ hQ _ hknown hwrites

theorem updateRow [OfConstraint ε] {qualifies : Row key → Bool}
    {set : AList Row → Row key → Row key} {Q : Option (Row key) → AList Row → G → Prop}
    (hnone : ∀ c, T.known g c → c.writes = w →
      (∀ row, c.seen.lookup key = some row → qualifies row = false) → Q none w g)
    (hsome : ∀ c seen row, T.known g c → c.writes = w → c.seen.lookup key = some row →
      qualifies row = true →
      Follows S T (Handler.write key (set seen row)) w g (fun _ w' g' => Q (some (set seen row)) w' g') E) :
    Follows S T (Handler.updateRow key qualifies set : Handler Row Req Resp ε _) w g Q E := by
  have hmiss {c : Scene Row Upstream} (hfilter : (c.seen.lookup key).filter qualifies = none) :
      ∀ row, c.seen.lookup key = some row → qualifies row = false := by
    intro row hrow
    simpa using filter_eq_none_iff.mp hfilter row hrow
  refine .bind (.snapshot hpasses fun c hknown hwrites => ?_)
  cases hfound : (c.seen.lookup key).filter qualifies with
  | none => exact .pure (hnone c hknown hwrites (hmiss hfound))
  | some _ =>
    refine .bind (.bind (.lock hpasses fun c' hknown' hwrites' => ?_))
    cases hrow : (c'.seen.lookup key).filter qualifies with
    | none => exact .pure (hnone c' hknown' hwrites' (hmiss hrow))
    | some row =>
      obtain ⟨hlocked, hqualifies⟩ := filter_eq_some_iff.mp hrow
      exact .bind (.mono (fun _ _ _ hQ => .pure hQ) (fun _ _ _ hE => hE)
        (hsome c' c.seen row hknown' hwrites' hlocked hqualifies))

variable [OfConstraint ε] (hkey : ¬ K key)
include hkey

theorem write_of_passes {row : Row key} {Q : Unit → AList Row → G → Prop}
    (hok : Q () (w.insert key row) g) (herror : ∀ e, E (OfConstraint.ofConstraint e) w g) :
    Follows S T (Handler.write key row : Handler Row Req Resp ε Unit) w g Q E := by
  refine .write (fun c hknown _ => ⟨g, ?_, hok⟩) fun c e hknown _ => ⟨g, ?_, herror e⟩
  · exact hpasses (.write key row) c (.ok ()) _ hknown hkey (.inl ⟨rfl, rfl⟩)
  · exact hpasses (.write key row) c (.error e) _ hknown hkey (.inr ⟨⟨e, rfl⟩, rfl⟩)

theorem insert_of_passes {row : AList Row → Row key} {Q : Bool → AList Row → G → Prop}
    (hnew : ∀ c, T.known g c → c.writes = w → key ∉ c.seen → Q true (w.insert key (row c.seen)) g)
    (hold : Q false w g) (herror : E (OfConstraint.ofConstraint .check) w g) :
    Follows S T (Handler.insert key row : Handler Row Req Resp ε Bool) w g Q E := by
  refine .insert (fun c hknown hwrites hmem => ⟨g, ?_, hnew c hknown hwrites hmem⟩)
    (fun c hknown _ hmem => ⟨g, ?_, hold⟩) fun c hknown _ hcheck => ⟨g, ?_, herror⟩
  · exact hpasses (.insert key row) c (.ok true) _ hknown hkey (.inl ⟨rfl, hmem, rfl⟩)
  · exact hpasses (.insert key row) c (.ok false) _ hknown hkey (.inr (.inl ⟨rfl, hmem, rfl⟩))
  · exact hpasses (.insert key row) c (.error .check) _ hknown hkey
      (.inr (.inr ⟨rfl, hcheck, rfl⟩))

end Passing

variable (hignores : T.Ignores K calm)
include hignores

theorem transaction
    (hbody : Follows S T h w g (fun a w' g' => T.Commits g' w' (Q a ∅))
      fun e w' g' => T.Drops g' w' (E e ∅)) :
    Follows S T (Handler.inTransaction h) w g Q E := by
  refine .inTransaction fun c _ _ => ⟨g, ?_, hbody⟩
  exact hignores g .begin c c.begun rfl ⟨fun _ _ => rfl, fun _ _ => rfl, rfl⟩ (.inl rfl)

theorem spared_transaction (hcalm : calm g) (hspares : Spares K false h) (hfree : FreeOf K w)
    (hQ : ∀ a, Q a ∅ g) (hE : ∀ e, E e ∅ g) : Follows S T (Handler.inTransaction h) w g Q E := by
  refine .transaction hignores (.of_stays (hignores.passes g) hspares ?_ ?_)
  · exact fun a w' hagree => commits hignores hcalm (hfree.agreeOn hagree) (hQ a)
  · exact fun e w' hagree => drops hignores (hfree.agreeOn hagree) (hE e)

end Follows

end Handler

/-- Every live session follows the script from its phase on, towards what its call promises. -/
def Script.Followed (T : Script Row Req Upstream G) (V : Server Row Index Req Resp Upstream Call α)
    (promise : Call → α → G → Prop) (s : Sys Row Index Req Resp Upstream Call α) (γ : Nat → G) :
    Prop :=
  ∀ sid call p tx, s.sessions sid = some ⟨call, some p, tx⟩ →
    p.Follows V.schema T tx.writes (γ sid) fun a _ g => promise call a g

variable {promise : Call → α → G → Prop}

theorem Script.Followed.of_atRest (hrest : s.AtRest) : T.Followed V promise s γ := by
  intro sid call p tx hsession
  rw [hrest.1 sid] at hsession
  cases hsession

/-- The session that acts goes on from its new phase, the others from where they were. -/
theorem Script.Followed.setSession (hfollowed : T.Followed V promise s γ)
    (hp : p.Follows V.schema T tx.writes g fun a _ g => promise call a g) :
    T.Followed V promise (s.setSession sid ⟨call, some p, tx⟩ sh) (update γ sid g) := by
  intro other call' p' tx' hother
  obtain ⟨rfl, hsame⟩ | ⟨heq, hother⟩ := setSession_eq_some.mp hother
  · cases hsame
    rw [update_self]
    exact hp
  · rw [update_of_ne heq]
    exact hfollowed other call' p' tx' hother

variable [DecidableEq Index]

abbrev RunInvariant (Row : Key → Type) (Index Req Resp Upstream Call α G : Type) :=
  List (Event Row Index Req Resp Upstream Call α) → Sys Row Index Req Resp Upstream Call α →
    (Nat → G) → Prop

/-- An invariant of runs and of the phases of the sessions that every move of a script keeps. -/
structure Script.Keeps (T : Script Row Req Upstream G) (V : Server Row Index Req Resp Upstream Call α)
    (ok : Sys Row Index Req Resp Upstream Call α → Action Key Call → Prop)
    (first : Sys Row Index Req Resp Upstream Call α → Call → G)
    (I : RunInvariant Row Index Req Resp Upstream Call α G) : Prop where
  start : ∀ history s γ sid call t, I history s γ → ok s (.start sid call) →
    step V s (.start sid call) = some t → s.sessions sid = none →
    t = s.setSession sid ⟨call, some (V.handler call), .idle⟩ s.toShared →
    I (⟨s, .start sid call, t⟩ :: history) t (update γ sid (first s call))
  known : ∀ history s γ sid call o next tx, I history s γ →
    s.sessions sid = some ⟨call, some (.op o next), tx⟩ → T.known (γ sid) (.of sid s.toShared tx)
  run : ∀ history s γ sid choice call o next tx answer sh' tx' g t, I history s γ →
    ok s (.run sid choice) → step V s (.run sid choice) = some t →
    s.sessions sid = some ⟨call, some (.op o next), tx⟩ →
    o.exec V.schema sid choice s.toShared tx = some (answer, sh', tx') →
    T.move (γ sid) o (.of sid s.toShared tx) g (.of sid sh' tx') →
    t = s.setSession sid ⟨call, some (next answer), tx'⟩ sh' →
    I (⟨s, .run sid choice, t⟩ :: history) t (update γ sid g)
  crash : ∀ history s γ sid call p tx t, I history s γ → ok s (.crash sid) →
    step V s (.crash sid) = some t → s.sessions sid = some ⟨call, some p, tx⟩ →
    t = s.setSession sid ⟨call, none, { tx with writes := ∅ }⟩
      (settle sid s.toShared s.committed) →
    I (⟨s, .crash sid, t⟩ :: history) t γ
  tick : ∀ history s γ elapsed t, I history s γ → ok s (.tick elapsed) →
    step V s (.tick elapsed) = some t → t = { s with clock := s.clock + elapsed } →
      I (⟨s, .tick elapsed, t⟩ :: history) t γ

variable {ok : Sys Row Index Req Resp Upstream Call α → Action Key Call → Prop}
  {first : Sys Row Index Req Resp Upstream Call α → Call → G}
  {I : RunInvariant Row Index Req Resp Upstream Call α G}

theorem Script.Followed.moves {next : o.Result Resp → Prog Row Req Resp α} {choice : Choice Key}
    (hfollowed : T.Followed V promise s γ)
    (hknown : T.known (γ sid) (.of sid s.toShared tx))
    (hsession : s.sessions sid = some ⟨call, some (.op o next), tx⟩)
    (hexec : o.exec V.schema sid choice s.toShared tx = some (answer, sh', tx')) :
    ∃ g, T.move (γ sid) o (.of sid s.toShared tx) g (.of sid sh' tx') ∧
      (next answer).Follows V.schema T tx'.writes g fun a _ g => promise call a g :=
  hfollowed sid call _ tx hsession _ answer _ hknown rfl (exec_acts hexec)

theorem Script.Keeps.run_induct {history : List (Event Row Index Req Resp Upstream Call α)}
    (hkeeps : T.Keeps V ok first I)
    (hcalls : ∀ s sid call, ok s (.start sid call) →
      (V.handler call).Follows V.schema T ∅ (first s call) fun a _ g => promise call a g)
    (hinit : ∃ γ, I [] s γ ∧ T.Followed V promise s γ) (hrun : Run V ok s history t) :
    ∃ γ, I history t γ ∧ T.Followed V promise t γ := by
  induction hrun with
  | nil => exact hinit
  | @cons history t a u _ hok hstep ih =>
    obtain ⟨γ, hI, hfollowed⟩ := ih
    cases step_cases hstep with
    | start sid call hnew ht =>
      refine ⟨_, hkeeps.start history t γ sid call u hI hok hstep hnew ht, ?_⟩
      rw [ht]
      exact hfollowed.setSession (hcalls t sid call hok)
    | run sid choice call o next tx answer sh' tx' hsession hexec ht =>
      have hknown := hkeeps.known history t γ sid call o next tx hI hsession
      obtain ⟨g, hmove, hnext⟩ := hfollowed.moves hknown hsession hexec
      refine ⟨_, hkeeps.run history t γ sid choice call o next tx answer sh' tx' g u hI hok
        hstep hsession hexec hmove ht, ?_⟩
      rw [ht]
      exact hfollowed.setSession hnext
    | crash sid call p tx hsession ht =>
      refine ⟨γ, hkeeps.crash history t γ sid call p tx u hI hok hstep hsession ht,
        fun other call' p' tx' hother => ?_⟩
      subst ht
      obtain ⟨-, ⟨⟩⟩ | ⟨-, hother⟩ := setSession_eq_some.mp hother
      exact hfollowed other call' p' tx' hother
    | tick elapsed ht =>
      refine ⟨γ, hkeeps.tick history t γ elapsed u hI hok hstep ht, ?_⟩
      rw [ht]
      exact hfollowed

theorem Script.Keeps.reaches {J : Sys Row Index Req Resp Upstream Call α → (Nat → G) → Prop}
    (hkeeps : T.Keeps V ok first fun _ => J)
    (hcalls : ∀ s sid call, ok s (.start sid call) →
      (V.handler call).Follows V.schema T ∅ (first s call) fun a _ g => promise call a g)
    (hinit : ∃ γ, J s γ ∧ T.Followed V promise s γ) (hreach : Reaches V ok s t) :
    ∃ γ, J t γ ∧ T.Followed V promise t γ := by
  obtain ⟨history, hrun⟩ := hreach.exists_run
  exact hkeeps.run_induct hcalls hinit hrun

-- from here on programs are only taken apart by the rules
attribute [irreducible] Prog.Follows Handler.Follows

end ReadCommitted
