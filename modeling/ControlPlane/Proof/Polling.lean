import ControlPlane.Browser

/-!
# How long the console keeps asking

The budget of `stillAsking` is spent by every answer there ever was, complete ones among them.
-/

namespace ControlPlane.Browser

variable {T : Type}

def Fetch.failed : Fetch T → Bool
  | .success _ => false
  | .failure => true

/-- The fetch has left something to ask for. -/
def Fetch.wanting (isIncomplete : T → Bool) : Fetch T → Bool
  | .success data => isIncomplete data
  | .failure => true

/-- The answers of a history and the failures since the last of them. -/
def spent (history : List (Fetch T)) : Nat :=
  history.countP (!·.failed) + (history.takeWhile Fetch.failed).length

theorem attempts_after (history : List (Fetch T)) :
    (QueryState.after history).attempts = spent history := by
  have hcounts : (QueryState.after history).dataUpdateCount = history.countP (!·.failed) ∧
      (QueryState.after history).fetchFailureCount.getD 0 =
        (history.takeWhile Fetch.failed).length := by
    induction history with
    | nil => exact ⟨rfl, rfl⟩
    | cons fetch earlier ih =>
      cases fetch with
      | success data => simp [QueryState.after, QueryState.fetched, Fetch.failed, ih.1]
      | failure =>
        simp [QueryState.after, QueryState.fetched, Fetch.failed, List.takeWhile_cons, ih.1, ih.2]
  rw [QueryState.attempts, spent, hcounts.1, hcounts.2]

theorem armed_iff {isIncomplete : T → Bool} {state : QueryState T} {data : T}
    (hlatest : state.data = some data) (hincomplete : isIncomplete data = true) :
    (whileIncomplete isIncomplete state).isSome = true ↔ state.attempts ≤ giveUpAfter := by
  by_cases hasking : state.attempts ≤ giveUpAfter <;>
    simp [whileIncomplete, hlatest, hincomplete, stillAsking, hasking]

/-- **When an incomplete model is asked for again.** After any history whose latest data is
incomplete, fewer than six fetches in a row that were incomplete or failed leave the interval armed
exactly if the answers there ever were, and the failures since the last, are six at most. -/
theorem polling_kept_iff (isIncomplete : T → Bool) (history : List (Fetch T)) {data : T}
    (hlatest : (QueryState.after history).data = some data) (hincomplete : isIncomplete data = true) :
    ((history.takeWhile (Fetch.wanting isIncomplete)).length < giveUpAfter →
        (whileIncomplete isIncomplete (.after history)).isSome = true) ↔
      ((history.takeWhile (Fetch.wanting isIncomplete)).length < giveUpAfter →
        spent history ≤ giveUpAfter) := by
  rw [armed_iff hlatest hincomplete, attempts_after]

theorem polling_kept_iff_first :
    (whileIncomplete id (.after [.failure, .success true, .success false])).isSome = true :=
  (polling_kept_iff id _ rfl rfl).mpr (fun _ => by decide) (by decide)

/-- Six complete answers have spent the budget: the first incomplete one is not asked for again. -/
theorem polling_given_up :
    let history : List (Fetch Bool) := .success true :: List.replicate 6 (.success false)
    (QueryState.after history).data = some true ∧
      (history.takeWhile (Fetch.wanting id)).length = 1 ∧
      whileIncomplete id (.after history) = none := by
  decide

end ControlPlane.Browser
