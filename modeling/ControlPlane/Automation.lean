import Mathlib

/-!
# Automation events

n8n reports what its workflows do. What is forwarded to Discord goes through a throttle of the process.
-/

namespace ControlPlane.Automation

/-- In nanoseconds. An earlier instant that is not earlier is no time ago. -/
def durationSince (now earlier : Int) : Int := max (now - earlier) 0

def fromSecs (seconds : Int) : Int := seconds * 1000000000

def maxForwardsPerMinute : Nat := 20

def duplicateSuppressionWindow : Int := fromSecs 600

structure DiscordThrottle where
  recentMessages : List (String × Int) := []
  recentSends : List Int := []

inductive ForwardDecision where
  | send
  | duplicateWithinWindow
  | rateLimited
deriving DecidableEq

def decideForwardIn (state : DiscordThrottle) (message : String) (now : Int) :
    ForwardDecision × DiscordThrottle :=
  let recentMessages := state.recentMessages.filter fun (_, seen) =>
    durationSince now seen < duplicateSuppressionWindow
  let recentSends := state.recentSends.filter fun sent => durationSince now sent < fromSecs 60
  if recentMessages.any fun (seen, _) => seen = message then
    (.duplicateWithinWindow, ⟨recentMessages, recentSends⟩)
  else if maxForwardsPerMinute ≤ recentSends.length then
    (.rateLimited, ⟨recentMessages, recentSends⟩)
  else (.send, ⟨recentMessages ++ [(message, now)], recentSends ++ [now]⟩)

/-- The calls that were told to send, one after another, and the throttle they leave. -/
def forwardAll (calls : List (String × Int)) : List (String × Int) × DiscordThrottle :=
  calls.foldl (fun (sent, state) call =>
    let decided := decideForwardIn state call.1 call.2
    (if decided.1 = .send then sent ++ [call] else sent, decided.2)) ([], {})

end ControlPlane.Automation
