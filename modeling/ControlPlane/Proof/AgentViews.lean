import ControlPlane.Interleave.Deeds
import ControlPlane.Proof.ReadModels

/-!
# Failures in agent overviews

The tasks overview is kept with its failed sections, so that a later request shows them without
having fetched anything.
-/

namespace ControlPlane.ReadModels

open Interleave Interleave.Task List

/-- Every section that is shown as failed was fetched in vain, or its tenant was looked up in vain. -/
def OwnFailures (past : Trace Op Op.Result) (value : Value) : Prop :=
  ∀ found ∈ value, found.version = none →
    ∃ path ∈ [found.path, "tenant", "management-url"], ⟨.fetch found.slug path, none⟩ ∈ past

def HandedOut (past : Trace Op Op.Result) (key : String) (value : Value) : Prop :=
  ⟨.lookup key, some value⟩ ∈ past ∨ ⟨.evict key, some value⟩ ∈ past

section Meets

variable {past : Trace Op Op.Result} {slug path key : String} {E : Trace Op Op.Result → ReadError → Prop}
  {value : Value}

def Missed (key : String) (past : Trace Op Op.Result) : Prop := ∀ value, ¬ HandedOut past key value

/-- What is found under the key is the answer, and nothing is fetched then. -/
structure Settled (key : String) (past : Trace Op Op.Result) (value : Value) : Prop where
  found : ∀ kept, HandedOut past key kept →
    kept = value ∧ ∀ slug path answer, ⟨.fetch slug path, answer⟩ ∉ past
  missed : Missed key past → OwnFailures past value

theorem OwnFailures.mono {more : Trace Op Op.Result} (hown : OwnFailures past value)
    (hsub : past ⊆ more) : OwnFailures more value := by
  intro found hfound hnone
  obtain ⟨path, hpath, hmem⟩ := hown found hfound hnone
  exact ⟨path, hpath, hsub hmem⟩

end Meets

def taskSections : List (String × String) :=
  ["/templates", "/tasks", "/models", "/suggestions", "/schedules"].map fun path => ("acme", path)

/-- No tenant answers the first request, and the second one is answered from the map. -/
def replay : List (Action Choice Nat Call) :=
  .start 0 (.tasksOverview "acme") :: List.replicate 14 (.run 0 ⟨false, taskSections⟩) ++
    [.start 1 (.tasksOverview "acme"), .run 1 ⟨true, []⟩]

end ControlPlane.ReadModels
