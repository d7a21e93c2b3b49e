import Occupancy.Error
import Occupancy.Time.Instant
import Occupancy.Uuid

/-!
# Occupancy sessions

A session is one billable stay in a room. Its billing clock runs while it is in use and stands still
while it is paused.
-/

namespace Occupancy

abbrev SessionId := Uuid

/-- Where a session is in its life. A room without an open session has no session that is in use or
paused. -/
inductive SessionStatus where
  | inUse
  | paused
  | finalized
  | cancelled
deriving DecidableEq

namespace SessionStatus

/-- The stored name of a status. -/
def text : SessionStatus → String
  | .inUse => "in_use"
  | .paused => "paused"
  | .finalized => "finalized"
  | .cancelled => "cancelled"

/-- The status with a stored name. -/
def ofText? (s : String) : Option SessionStatus :=
  if s = "in_use" then some .inUse
  else if s = "paused" then some .paused
  else if s = "finalized" then some .finalized
  else if s = "cancelled" then some .cancelled
  else none

/-- Can the session still change? -/
def isOpen : SessionStatus → Bool
  | .inUse => true
  | .paused => true
  | .finalized => false
  | .cancelled => false

/-- Is the session frozen for good? -/
def isTerminal (s : SessionStatus) : Bool :=
  !s.isOpen

end SessionStatus

/-- One billable stay in a room. -/
structure Session where
  id : SessionId
  room : RoomId
  customer : Option Word
  startedAt : Instant
  scheduledEndAt : Instant
  /-- The start of the current pause. -/
  pausedAt : Option Instant
  accumulatedPause : Span
  status : SessionStatus
  /-- The running cost in minor units of the currency. -/
  billedTimeCost : Word
  /-- The time of the last transition. -/
  endedAt : Option Instant
deriving DecidableEq

namespace Session

/-! ## The billing clock -/

/-- The instant at which the billing clock stands: `now`, or the start of the current pause. -/
def billingInstant (s : Session) (now : Instant) : Instant :=
  match s.status, s.pausedAt with
  | .paused, some pausedAt => pausedAt.earlier now
  | _, _ => now

/-- The billed time so far: the time since the start without the pauses, never negative. There is no
answer where the pauses take it out of the range of spans. -/
def elapsedBillable? (s : Session) (now : Instant) : Option Span :=
  ((s.billingInstant now - s.startedAt).sub? s.accumulatedPause).map Span.clampNonneg

/-- The time left until the scheduled end, never negative. -/
def remaining (s : Session) (now : Instant) : Span :=
  (s.scheduledEndAt - s.billingInstant now).clampNonneg

end Session

end Occupancy
