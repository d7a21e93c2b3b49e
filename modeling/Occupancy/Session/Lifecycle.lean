import Occupancy.Session.Basic

/-!
# The life of a session

Opening a session, its transitions, and its end when the booked time is over. All rules are pure, so
that every store applies the same ones.

```text
idle --book--> in use <--pause, resume--> paused
                 |                          |
                 +----- cancel, finalize ---+----> cancelled, finalized
```

A session that has ended never changes again.
-/

namespace Occupancy

/-- The longest time that can be booked in one session, pauses excluded: 366 days. -/
def maxBookedSeconds : Nat :=
  366 * 24 * 60 * 60

/-- A transition of an open session. -/
inductive Transition where
  | pause
  | resume
  /-- Moves the scheduled end by a number of seconds, which may be negative. -/
  | extend (delta : Word)
  | cancel
  | finalize
deriving DecidableEq

namespace Transition

def verb : Transition → Verb
  | .pause => .pause
  | .resume => .resume
  | .extend _ => .extend
  | .cancel => .cancel
  | .finalize => .finalize

/-- The activity that the linked device takes on after a transition, if it changes. -/
def deviceEffect : Transition → Option Bool
  | .pause => some false
  | .resume => some true
  | .extend _ => none
  | .cancel => some false
  | .finalize => some false

end Transition

namespace Session

/-! ## Opening -/

/-- A fresh session from `now` on for `duration` seconds. -/
def book (id : SessionId) (room : RoomId) (customer : Option Word) (duration : Word)
    (now : Instant) : Except RoomError Session :=
  if duration.toInt ≤ 0 then
    .error (.invalidInput ("duration must be positive, got " ++ Decimal.word duration ++ "s"))
  else if duration.toInt > maxBookedSeconds then
    .error (.invalidInput ("duration " ++ Decimal.word duration ++ "s exceeds the " ++
      Decimal.text maxBookedSeconds ++ "s limit"))
  else
    match (Span.ofSeconds? duration.toInt).bind now.add? with
    | none =>
      .error (.invalidInput ("duration " ++ Decimal.word duration ++ "s is out of range"))
    | some scheduledEndAt =>
      .ok {
        id, room, customer, scheduledEndAt
        startedAt := now
        pausedAt := none
        accumulatedPause := .zero
        status := .inUse
        billedTimeCost := 0
        endedAt := none }

/-! ## Transitions -/

/-- The time spent in the current pause, never negative. -/
def pauseSoFar (s : Session) (now : Instant) : Span :=
  match s.pausedAt with
  | some pausedAt => (now - pausedAt).clampNonneg
  | none => .zero

/-- The session ended at `now` with status `status`. A pause under way counts as pause. -/
def close (s : Session) (status : SessionStatus) (now : Instant) : Session :=
  { s with
    accumulatedPause := s.accumulatedPause.saturatingAdd (s.pauseSoFar now)
    pausedAt := none
    endedAt := some now
    status }

/-- The session in use again: the end moves by the length of the pause. -/
def resumed (s : Session) (now : Instant) : Session :=
  let pause := s.pauseSoFar now
  { s with
    accumulatedPause := s.accumulatedPause.saturatingAdd pause
    scheduledEndAt := (s.scheduledEndAt.add? pause).getD .last
    pausedAt := none
    status := .inUse }

/-- The failure of an extension beyond the booking limit. -/
def overbooked (delta : Word) : RoomError :=
  .invalidInput ("extension of " ++ Decimal.word delta ++ "s exceeds the " ++
    Decimal.text maxBookedSeconds ++ "s booking limit")

/-- The scheduled end moved by `delta` seconds, but not before the start. A move that leaves the
range of instants ends at the start if it is a reduction, and fails otherwise, as does an extension
beyond the booking limit. -/
def shiftedEnd (s : Session) (delta : Word) : Except RoomError Instant :=
  match (Span.ofSeconds? delta.toInt).bind s.scheduledEndAt.add? with
  | none => if delta.toInt < 0 then .ok s.startedAt else .error (overbooked delta)
  | some moved =>
    let ending := moved.later s.startedAt
    let booked := ((ending - s.startedAt).sub? s.accumulatedPause).getD .zero
    if delta.toInt > 0 ∧ booked.seconds > maxBookedSeconds then .error (overbooked delta)
    else .ok ending

/-- The failure of a transition that the status does not allow. -/
def rejected (s : Session) (t : Transition) : RoomError :=
  .invalidState s.room t.verb ("session is " ++ s.status.text)

/-- The session after a transition at `now`. -/
def apply (s : Session) (t : Transition) (now : Instant) : Except RoomError Session :=
  match t, s.status with
  | .pause, .inUse =>
    if s.pausedAt = none then .ok { s with pausedAt := some now, status := .paused }
    else .error (s.rejected t)
  | .resume, .paused => .ok (s.resumed now)
  | .extend delta, .inUse =>
    (s.shiftedEnd delta).map fun ending => { s with scheduledEndAt := ending }
  | .cancel, status =>
    if status.isOpen then .ok (s.close .cancelled now) else .error (s.rejected t)
  | .finalize, status =>
    if status.isOpen then .ok (s.close .finalized now) else .error (s.rejected t)
  | _, _ => .error (s.rejected t)

/-! ## Expiry -/

/-- Is the session in use at or past its scheduled end? A paused session never is. -/
def isExpired (s : Session) (now : Instant) : Bool :=
  s.status = .inUse && s.scheduledEndAt ≤ now

/-- The finalized session, if it has expired. -/
def expire? (s : Session) (now : Instant) : Option Session :=
  if s.isExpired now then some (s.close .finalized now) else none

end Session

end Occupancy
