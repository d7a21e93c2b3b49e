import Occupancy.Error
import Occupancy.Table
import Occupancy.Time.Instant

/-!
# Rates of updates

How many updates came in a window of time, in all and for each room. Updates are kept in the order in
which they came; those older than the window are dropped from the front whenever rates are taken.
-/

namespace Occupancy

/-- The moments of the updates, in all and by room. -/
structure Rates where
  all : List Instant := []
  rooms : Table RoomId (List Instant) := ∅

/-- Rates of updates: in all, and of each room that had any. -/
structure RateReport where
  all : Nat
  rooms : List (RoomId × Nat)
deriving DecidableEq

namespace Rates

/-- Notes an update of a room. -/
def record (r : Rates) (room : RoomId) (now : Instant) : Rates where
  all := r.all ++ [now]
  rooms := r.rooms.alter room fun old => old.getD [] ++ [now]

/-- Drops the moments before `cutoff` from the front. -/
def prune (cutoff : Instant) (moments : List Instant) : List Instant :=
  moments.dropWhile fun t => t < cutoff

/-- Busier rooms first. Rates promise no order among rooms with equal counts, for which any may be chosen; here it
is that of their numbers. -/
def busier (a b : RoomId × Nat) : Bool :=
  if a.2 = b.2 then a.1.toInt ≤ b.1.toInt else b.2 < a.2

/-- Drops the updates before `cutoff` and counts those that are left. -/
def take (r : Rates) (cutoff : Instant) : RateReport × Rates :=
  let all := prune cutoff r.all
  let rooms := r.rooms.mapValues fun _ moments => prune cutoff moments
  let counts := rooms.entries.filterMap fun (room, moments) =>
    if moments.isEmpty then none else some (room, moments.length)
  (⟨all.length, counts.mergeSort busier⟩, ⟨all, rooms⟩)

/-- The rates over a window of time that ends at `now`, unless the window begins beyond all instants. -/
def over? (r : Rates) (window : Span) (now : Instant) : Option (RateReport × Rates) :=
  (now.back? window).map r.take

end Rates

end Occupancy
