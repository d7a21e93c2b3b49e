import Occupancy.Time.Span

/-!
# Backoff

The wait before another attempt to connect doubles with every failure, up to a longest wait.
-/

namespace Occupancy

/-- How long to wait between attempts to connect. -/
structure RetryPolicy where
  base : Wait
  longest : Wait
deriving DecidableEq

namespace RetryPolicy

/-- Half a second at first, half a minute at most. -/
def standard : RetryPolicy where
  base := { nanos := 500000000 }
  longest := { nanos := 30000000000 }

/-- The wait after `attempt` failed attempts before this one. Doubling stops after 16 of them, and a
wait that is out of range counts as the longest. -/
def delay (p : RetryPolicy) (attempt : Nat) : Wait :=
  ((p.base.scale? (Nat.pow 2 (min attempt 16))).getD p.longest).shorter p.longest

end RetryPolicy

end Occupancy
