import Occupancy.Time.Span
import Occupancy.Time.Calendar

/-!
# Instants

Points of universal time in whole nanoseconds since the start of 1970, from the first moment of the
year -262143 to the last of the year 262142. Moving an instant may leave that range; the span
between two instants is always a span.
-/

namespace Occupancy

/-- A point of universal time. -/
structure Instant where
  /-- Nanoseconds since the start of 1970. -/
  nanos : Int
  /-- The instant is within the range of instants. -/
  inRange : -8334601228800 * 1000000000 ≤ nanos ∧ nanos < 8210266876800 * 1000000000
deriving DecidableEq

namespace Instant

/-- The instant of that many nanoseconds since 1970, if there is one. -/
def ofNanos? (n : Int) : Option Instant :=
  if h : -8334601228800 * 1000000000 ≤ n ∧ n < 8210266876800 * 1000000000 then some ⟨n, h⟩ else none

/-- The start of 1970. -/
def epoch : Instant :=
  ⟨0, by decide⟩

def last : Instant :=
  ⟨8210266876800 * 1000000000 - 1, by decide⟩

instance : Inhabited Instant :=
  ⟨epoch⟩

instance : LE Instant :=
  ⟨fun a b => a.nanos ≤ b.nanos⟩

instance : LT Instant :=
  ⟨fun a b => a.nanos < b.nanos⟩

instance (a b : Instant) : Decidable (a ≤ b) :=
  inferInstanceAs (Decidable (a.nanos ≤ b.nanos))

instance (a b : Instant) : Decidable (a < b) :=
  inferInstanceAs (Decidable (a.nanos < b.nanos))

def earlier (a b : Instant) : Instant :=
  if a ≤ b then a else b

def later (a b : Instant) : Instant :=
  if a ≤ b then b else a

def add? (a : Instant) (s : Span) : Option Instant :=
  ofNanos? (a.nanos + s.nanos)

/-- The instant that lies `s` before `a`, if there is one. -/
def back? (a : Instant) (s : Span) : Option Instant :=
  ofNanos? (a.nanos - s.nanos)

def sub (a b : Instant) : Span :=
  ⟨a.nanos - b.nanos, by
    have ha := a.inRange
    have hb := b.inRange
    omega⟩

instance : HSub Instant Instant Span :=
  ⟨sub⟩

/-- The instant cut down to whole microseconds, towards the start of 2000. -/
def toMicros (a : Instant) : Int :=
  (a.nanos - 946684800 * 1000000000).tdiv 1000 + 946684800 * 1000000

end Instant

end Occupancy
