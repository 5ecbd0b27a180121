import ControlPlane.Proof.Preparation

/-!
# A placement that changes

`converge_secret_env` rewrites the lines of `.env` that say where the database is. What a file said
before makes no difference to them, so that every way to a placement ends in the same file.
-/

namespace ControlPlane.Provisioner

open Interleave Interleave.Task List
open Python (splitlines Plain)

variable {rt : Runtime} {base plan plan' : Json} {slug placement : String} {text : List Char}
  {lines : List (List Char)}

/-- On every host with this `.env` a run of `converge_secret_env` succeeds and leaves that one. -/
def Turns (plan : Json) (text text' : List Char) : Prop :=
  ∀ slug w answers, (w.tenant slug).env = some text →
    ((convergeSecretEnv slug plan).run.finish exec answers w).2 = .ok () ∧
      (((convergeSecretEnv slug plan).run.finish exec answers w).1.tenant slug).env = some text'

theorem turns_convergedEnv (hpassword : envValue "POSTGRES_PASSWORD" text ≠ []) :
    Turns plan text (convergedEnv plan text) := by
  intro slug w answers henv
  have hmeets : Meets (keepingEnv slug fun _ => True) (convergeSecretEnv slug plan) (0, w)
      (fun k _ => (k.2.tenant slug).env = some (convergedEnv plan text)) (fun _ _ => False) :=
    meets_convergeSecretEnv henv trivial (fun _ n u hu => hu) fun hnone => absurd hnone hpassword
  obtain ⟨n, hend⟩ := completes_cases hmeets (Proc.completes_finish answers)
  cases hresult : ((convergeSecretEnv slug plan).run.finish exec answers w).2 with
  | ok done =>
    rw [hresult] at hend
    exact ⟨rfl, hend⟩
  | error e =>
    rw [hresult] at hend
    exact hend.elim

def fileOf (lines : List (List Char)) : List Char := lines.flatMap (· ++ ['\n'])

theorem convergedEnv_fileOf (hlines : ∀ line ∈ lines, Plain line) :
    convergedEnv plan (fileOf lines) =
      fileOf (converged (placementValues plan (envValue "POSTGRES_PASSWORD" (fileOf lines))) lines) := by
  have hsplit : splitlines (fileOf lines) = lines := Python.splitlines_flatMap hlines
  rw [convergedEnv, hsplit]
  split_ifs with hsame
  · rw [hsame]
  · exact joinLines_eq converged_ne_nil

theorem envValue_convergedEnv (hplaced : Placed base slug placement plan) :
    envValue "POSTGRES_PASSWORD" (convergedEnv plan text) = envValue "POSTGRES_PASSWORD" text := by
  unfold envValue
  rw [(converges_convergedEnv hplaced).others _ (by decide) (by decide)]

theorem convergedEnv_convergedEnv (hplaced : Placed base slug placement plan)
    (hlines : ∀ line ∈ lines, Plain line) :
    convergedEnv plan' (convergedEnv plan (fileOf lines)) = convergedEnv plan' (fileOf lines) := by
  have hpassword : envValue "POSTGRES_PASSWORD" (convergedEnv plan (fileOf lines)) = _ :=
    envValue_convergedEnv hplaced
  rw [convergedEnv_fileOf hlines] at hpassword ⊢
  rw [convergedEnv_fileOf (plain_placed hplaced hlines), hpassword, convergedEnv_fileOf hlines]
  exact congrArg fileOf
    (converged_converged (plainKeys_placementValues _) (plainKeys_placementValues _) rfl)

theorem turns_again (hplaced : Placed base slug placement plan) (hlines : ∀ line ∈ lines, Plain line)
    (hpassword : envValue "POSTGRES_PASSWORD" (fileOf lines) ≠ []) :
    Turns plan' (convergedEnv plan (fileOf lines)) (convergedEnv plan' (fileOf lines)) := by
  have hturns : Turns plan' (convergedEnv plan (fileOf lines)) _ :=
    turns_convergedEnv (by rwa [envValue_convergedEnv hplaced])
  rwa [convergedEnv_convergedEnv hplaced hlines] at hturns

def PlacementLine (line : List Char) : Prop := ∃ key ∈ placementNames, lineKey line = key.toList

/-- Lines of the placement may be changed, in their places, or added; the others are kept. -/
def Rewrites (lines lines' : List (List Char)) : Prop :=
  ∃ kept added, lines' = kept ++ added ∧ (∀ line ∈ added, PlacementLine line) ∧
    Forall₂ (fun line line' => line' = line ∨ PlacementLine line ∧ lineKey line' = lineKey line)
      lines kept

theorem rewrites_converged (password : List Char) :
    Rewrites lines (converged (placementValues plan password) lines) := by
  have hkeys : PlainKeys (placementValues plan password) := plainKeys_placementValues password
  refine ⟨_, _, converged_eq, fun line hline => ?_, ?_⟩
  · obtain ⟨entry, hentry, rfl⟩ := mem_map.mp hline
    have hmem := (mem_filter.mp hentry).1
    exact ⟨entry.1, mem_map_of_mem (f := Prod.fst) hmem, lineKey_assign (hkeys.plain entry hmem)⟩
  · rw [forall₂_map_right_iff, forall₂_same]
    intro line _
    by_cases hline : PlacementLine line
    · exact .inr ⟨hline, lineKey_convergeLine hkeys⟩
    · refine .inl (convergeLine_of_ne fun entry hentry hname => hline ?_)
      exact ⟨entry.1, mem_map_of_mem (f := Prod.fst) hentry, hname.symm⟩

theorem convergedEnv_envText (hplaced : Placed base slug placement plan) (config : Config)
    (secrets : Secrets) : convergedEnv plan (envText (secretValues rt config plan secrets)) =
      envText (secretValues rt config plan secrets) := by
  have hkeys : PlainKeys (secretValues rt config plan secrets) := plainKeys_secretValues secrets
  have hplain : ∀ entry ∈ secretValues rt config plan secrets, Plain entry.2 := fun entry hentry =>
    (plainName_secretValues hplaced secrets entry hentry).2
  have hpassword : envValue "POSTGRES_PASSWORD" (envText (secretValues rt config plan secrets)) =
      secrets.dbPassword.text := by
    have hmem : ("POSTGRES_PASSWORD", secrets.dbPassword.text) ∈ secretValues rt config plan secrets := by
      simp [secretValues]
    rw [envValue, valuesOf_envText hkeys hplain hmem]
    exact (plain_token secrets.dbPassword).2
  have hsub : placementValues plan secrets.dbPassword.text ⊆ secretValues rt config plan secrets := by
    intro entry hentry
    simp only [placementValues, mem_cons, not_mem_nil, or_false] at hentry
    rcases hentry with rfl | rfl | rfl <;> simp [secretValues]
  rw [convergedEnv, hpassword, splitlines_envText hkeys hplain,
    converged_of_mem (plainKeys_placementValues _) hkeys hsub, if_pos rfl]

/-- **Secrets survive every placement.** For a file of printable lines with a password and plans that
were accepted: converging rewrites only lines of the placement and does nothing the second time or to
the file that was created for the plan, and going to another placement and back restores the file. -/
theorem placement_converges {job job' : Json}
    (hprintable : ∀ line ∈ lines, ∀ c ∈ line, 0x20 ≤ c.toNat ∧ c.toNat ≤ 0x7E)
    (hpassword : envValue "POSTGRES_PASSWORD" (fileOf lines) ≠ [])
    (hplan : safePlan rt.toRuntime job = .ok plan) (hplan' : safePlan rt.toRuntime job' = .ok plan') :
    (∃ lines', Rewrites lines lines' ∧ Turns plan (fileOf lines) (fileOf lines') ∧
      Turns plan (fileOf lines') (fileOf lines') ∧
      ∃ moved, Turns plan' (fileOf lines') moved ∧ Turns plan moved (fileOf lines')) ∧
    ∀ config secrets, Turns plan (envText (secretValues rt config plan secrets))
      (envText (secretValues rt config plan secrets)) := by
  obtain ⟨base, slug, placement, hplaced⟩ := safePlan_placed hplan
  obtain ⟨base', slug', placement', hplaced'⟩ := safePlan_placed hplan'
  have hlines : ∀ line ∈ lines, Plain line := by
    intro line hline c hc
    have hc := hprintable line hline c hc
    simp only [Python.isLineBreak, decide_eq_false_iff_not]
    omega
  refine ⟨⟨converged (placementValues plan (envValue "POSTGRES_PASSWORD" (fileOf lines))) lines,
    rewrites_converged _, ?_⟩, fun config secrets => ?_⟩
  · rw [← convergedEnv_fileOf hlines]
    exact ⟨turns_convergedEnv hpassword, turns_again hplaced hlines hpassword, _,
      turns_again hplaced hlines hpassword, turns_again hplaced' hlines hpassword⟩
  · have hturns : Turns plan (envText (secretValues rt config plan secrets)) _ :=
      turns_convergedEnv (intact_envText hplaced secrets).password
    rwa [convergedEnv_envText hplaced config secrets] at hturns

theorem placement_converges_acme : ∃ lines',
    Turns acmePlan (fileOf ["POSTGRES_DB=other".toList, "POSTGRES_PASSWORD=secret".toList])
      (fileOf lines') ∧ Turns acmePlan (fileOf lines') (fileOf lines') := by
  have hprintable : ∀ line ∈ ["POSTGRES_DB=other".toList, "POSTGRES_PASSWORD=secret".toList],
      ∀ c ∈ line, 0x20 ≤ c.toNat ∧ c.toNat ≤ 0x7E := by decide
  obtain ⟨⟨lines', -, hturns, hsame, -⟩, -⟩ :=
    placement_converges hprintable (by decide) acmePlan_safe acmePlan_safe
  exact ⟨lines', hturns, hsame⟩

end ControlPlane.Provisioner
