import Occupancy.Error

/-!
# The link to the broker

The state of the one connection to the broker, as everybody sees it. Reports of lost connections
bring it down, and only the first report after it was up does.
-/

namespace Occupancy

/-- State of the connection to the broker. -/
inductive LinkState where
  | down
  | connecting
  | up
deriving DecidableEq

namespace LinkState

def name : LinkState → String
  | .down => "Down"
  | .connecting => "Connecting"
  | .up => "Up"

/-- The word for a state in health reports. -/
def word : LinkState → String
  | .down => "down"
  | .connecting => "connecting"
  | .up => "up"

end LinkState

/-- The link: its state, and how often the state was written. Observers tell by the count whether
they have seen the latest state. -/
structure Link where
  state : LinkState := .down
  version : Nat := 0
deriving DecidableEq

namespace Link

/-- Is the connection usable? -/
def isUp (l : Link) : Bool :=
  l.state = .up

/-- Writes a state, which counts even if the state stays the same. -/
def become (l : Link) (state : LinkState) : Link :=
  ⟨state, l.version + 1⟩

/-- Reports a failed call. Only a lost connection brings the link down, and only if it is up. -/
def report (l : Link) (e : BrokerError) : Link :=
  if e.isConnectionLoss && l.isUp then l.become .down else l

end Link

end Occupancy
