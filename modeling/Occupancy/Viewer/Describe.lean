import Occupancy.View

/-!
# Lines about rooms

The line in which the viewer tool shows a view.
-/

namespace Occupancy

/-- The word for a status in lines about rooms. -/
def SessionStatus.label : SessionStatus → String
  | .inUse => "InUse"
  | .paused => "Paused"
  | .finalized => "Finalized"
  | .cancelled => "Cancelled"

/-- The line about a view. Timings that the view lacks count as zero. -/
def RoomView.describe (v : RoomView) : String :=
  let head := "room " ++ Decimal.word v.room ++ " [" ++ v.name ++ "] "
  match v.session with
  | none => head ++ "idle"
  | some s =>
    head ++ s.status.label ++ " elapsed=" ++ Decimal.word (v.elapsedBillableSeconds.getD 0) ++
      "s remaining=" ++ Decimal.word (v.remainingSeconds.getD 0) ++ "s"

end Occupancy
