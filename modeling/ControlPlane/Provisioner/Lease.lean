import ControlPlane.Provisioner.Agent

/-!
# The lease of a deployment

A thread renews the lease every thirty seconds and the deployment looks at what it has latched. Both
are told as one line of moments.
-/

namespace ControlPlane.Provisioner

open Interleave

/-- `LeaseKeeper`: what it has latched, and whether its thread is still in its loop. -/
structure LeaseKeeper where
  lost : Option ProvisionError := none
  running : Bool := true

variable (rt : Runtime)

/-- One round of `_run`, by what came of the request that `renew` made. -/
def LeaseKeeper.renewed (keeper : LeaseKeeper) (fetched : Fetched) : LeaseKeeper :=
  match apiResult rt fetched with
  | .ok _ => keeper
  | .error (.provision error) =>
    if error.terminal then { lost := some error, running := false } else keeper
  -- an exception of any other class ends the thread
  | .error (.other _) => { keeper with running := false }

inductive Moment where
  /-- A request for a renewal comes back; the control plane may have granted the lease up to a new end,
  whatever becomes of its answer. -/
  | renewal (fetched : Fetched) (granted : Option Nat)
  | step (time : Nat) (o : HostOp) (answer : o.Result)

structure Lease where
  keeper : LeaseKeeper := {}
  leaseEnd : Nat

def Lease.after (lease : Lease) : Moment → Lease
  | .renewal fetched granted =>
    if lease.keeper.running then
      { keeper := lease.keeper.renewed rt fetched, leaseEnd := granted.getD lease.leaseEnd }
    else lease
  | .step _ _ _ => lease

def stepsOf (moments : List Moment) : Trace HostOp HostOp.Result :=
  moments.filterMap fun moment =>
    match moment with
    | .renewal _ _ => none
    | .step _ o answer => some ⟨o, answer⟩

/-- A deployment up to some point: the claim with the end of its lease, the host before it, the moments
since, the host as it is now and what is left to do. -/
structure Deployment where
  claim : Json
  leaseEnd : Nat
  host : World
  moments : List Moment
  now : World
  rest : Proc HostOp HostOp.Result (Except Exn Unit)

namespace Deployment

variable (config : Config) (d : Deployment)

def leaseAfter (past : List Moment) : Lease := past.foldl (Lease.after rt) { leaseEnd := d.leaseEnd }

/-- The operations are those of `process_claim`, and a look at the lease sees what the keeper has. -/
structure Performed : Prop where
  course : Proc.Course exec d.host (processClaim rt config d.claim).run (stepsOf d.moments) d.now d.rest
  latched : ∀ past time answer future, d.moments = past ++ .step time .leaseLost answer :: future →
    answer = (d.leaseAfter rt past).keeper.lost

def Late (past : List Moment) (time : Nat) (answer : Option ProvisionError) (future : List Moment) : Prop :=
  d.moments = past ++ .step time .leaseLost answer :: future ∧ (d.leaseAfter rt past).leaseEnd < time

/-- A check after the lease has expired ends the deployment with `lease_lost`. -/
def StopsWhenLapsed : Prop :=
  ∀ past time answer future, d.Late rt past time answer future →
    stepsOf future = [] ∧ ∃ lost, d.rest = .ret (.error (leaseLostError lost))

end Deployment

end ControlPlane.Provisioner
