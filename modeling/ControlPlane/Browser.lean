import Mathlib

/-!
# Read models that came back incomplete

`frontend/src/lib/incomplete.ts`: the console refetches a model with missing sections, more slowly
each time, until it gives up.
-/

namespace ControlPlane.Browser

variable {T : Type}

structure QueryState (T : Type) where
  data : Option T
  dataUpdateCount : Nat
  fetchFailureCount : Option Nat

def retryAfterMs : Nat := 4000

def retryMaxMs : Nat := 30000

def giveUpAfter : Nat := 6

def QueryState.attempts (state : QueryState T) : Nat :=
  state.dataUpdateCount + state.fetchFailureCount.getD 0

def stillAsking (state : QueryState T) : Bool := state.attempts ≤ giveUpAfter

def retryDelay (state : QueryState T) : Nat :=
  min (retryAfterMs * 2 ^ (state.attempts - 1)) retryMaxMs

/-- The interval until the next fetch; `none` is the source's `false`. -/
def whileIncomplete (isIncomplete : T → Bool) (state : QueryState T) : Option Nat :=
  match state.data with
  | none => none
  | some data =>
    if !isIncomplete data then none
    else if !stillAsking state then none
    else some (retryDelay state)

/-- How a fetch ended. -/
inductive Fetch (T : Type) where
  | success (data : T)
  | failure

/-- What the query library makes of a fetch that has ended. -/
def QueryState.fetched (state : QueryState T) : Fetch T → QueryState T
  | .success data => ⟨some data, state.dataUpdateCount + 1, some 0⟩
  | .failure => { state with fetchFailureCount := some (state.fetchFailureCount.getD 0 + 1) }

/-- The state after the fetches of a history, the latest first. -/
def QueryState.after : List (Fetch T) → QueryState T
  | [] => ⟨none, 0, none⟩
  | fetch :: earlier => (after earlier).fetched fetch

end ControlPlane.Browser
