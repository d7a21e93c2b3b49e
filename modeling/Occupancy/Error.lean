import Occupancy.Time.Span

/-!
# Failures

The two families of failures: `RoomError` for requests about rooms, `BrokerError` for the transport
that carries views to viewers. Each failure is a cause; its wording is given by `message` alone.
-/

namespace Occupancy

abbrev RoomId := Word

/-- Identifier of the branch that owns a room. -/
abbrev BranchId := Word

/-- Identifier of a device linked to rooms. -/
abbrev DeviceId := Word

/-- Identifier of a user who owns devices. -/
abbrev UserId := Word

/-! ## Room errors -/

/-- What was being done to a session when it turned out to be in the wrong state. -/
inductive Verb where
  | pause
  | resume
  | extend
  | cancel
  | finalize
  | bill
deriving DecidableEq

def Verb.name : Verb → String
  | .pause => "pause"
  | .resume => "resume"
  | .extend => "extend"
  | .cancel => "cancel"
  | .finalize => "finalize"
  | .bill => "bill"

/-- Why a request about rooms was not carried out. -/
inductive RoomError where
  /-- No room, device or session matches the request. -/
  | notFound (subject : String)
  /-- The state of the room's session does not allow the verb. -/
  | invalidState (room : RoomId) (verb : Verb) (reason : String)
  /-- The room already has an open session. -/
  | conflict (room : RoomId)
  /-- The request carries an unusable value. -/
  | invalidInput (detail : String)
  /-- The broker or a socket failed. -/
  | transport (detail : String)
  /-- The store failed. -/
  | internal (detail : String)
deriving DecidableEq

namespace RoomError

/-- The failure for an unknown room. -/
def noRoom (room : RoomId) : RoomError :=
  .notFound ("room " ++ Decimal.word room)

/-- The failure for an unknown device. -/
def noDevice (device : DeviceId) : RoomError :=
  .notFound ("device " ++ Decimal.word device)

/-- The wording of a failure. -/
def message : RoomError → String
  | .notFound subject => subject ++ " not found"
  | .invalidState room verb reason =>
    "cannot " ++ verb.name ++ " room " ++ Decimal.word room ++ ": " ++ reason
  | .conflict room => "room " ++ Decimal.word room ++ " already has an open session"
  | .invalidInput detail => "invalid input: " ++ detail
  | .transport detail => "transport error: " ++ detail
  | .internal detail => "internal error: " ++ detail

/-- The label of a failure in answers to clients. -/
def kind : RoomError → String
  | .notFound _ => "NotFound"
  | .invalidState _ _ _ => "InvalidState"
  | .conflict _ => "Conflict"
  | .invalidInput _ => "InvalidInput"
  | .transport _ => "TransportError"
  | .internal _ => "Internal"

end RoomError

/-! ## Broker errors -/

/-- Why the transport did not do its work. -/
inductive BrokerError where
  /-- There is no live connection. -/
  | disconnected
  /-- A connection could not be made. -/
  | connect (detail : String)
  /-- No answer came within the limit. -/
  | timeout (limit : Wait)
  /-- The answer made no sense. -/
  | protocol (detail : String)
deriving DecidableEq

namespace BrokerError

/-- The wording of a failure. -/
def message : BrokerError → String
  | .disconnected => "broker is disconnected"
  | .connect detail => "broker connect failed: " ++ detail
  | .timeout limit => "broker operation timed out after " ++ limit.text
  | .protocol detail => "broker protocol error: " ++ detail

/-- The label of a failure. -/
def kind : BrokerError → String
  | .disconnected => "Disconnected"
  | .connect _ => "Connect"
  | .timeout _ => "Timeout"
  | .protocol _ => "Protocol"

/-- Is the connection itself gone, so that it has to be made anew? -/
def isConnectionLoss : BrokerError → Bool
  | .protocol _ => false
  | _ => true

/-- A transport failure as the failure of a request. -/
def toRoomError (e : BrokerError) : RoomError :=
  .transport e.message

end BrokerError

end Occupancy
