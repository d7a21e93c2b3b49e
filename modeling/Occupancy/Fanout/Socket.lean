import Occupancy.Fanout.Registry
import Occupancy.Operation.Engine

/-!
# A viewer's connection

A connection registers its viewer, makes sure that its topic is read, and sends the current view
first if the topic is a room. Then it forwards payloads until the client leaves, a payload cannot be
written in time, the viewer is told to close, or the server shuts down.
-/

namespace Occupancy

/-- What happens to a connection that waits. -/
inductive SocketEvent where
  /-- The client sent something; it only shows that the client lives. -/
  | inbound
  /-- The client closed the connection or is gone. -/
  | left
  /-- A payload for the client. -/
  | payload (text : String)
  /-- The viewer was told to close. -/
  | closed
  /-- The server shuts down. -/
  | shutdown
deriving DecidableEq

/-- What a connection asks for. -/
inductive SocketCall where
  /-- Register a new viewer under a topic. -/
  | register (t : Topic)
  /-- Start a consumer for the topic unless one runs. -/
  | ensure (t : Topic)
  | store (c : StoreCall)
  /-- Write the first view, however long it takes. -/
  | writeFirst (payload : String)
  /-- Write a payload within the time limit; answers whether that worked. -/
  | write (payload : String)
  /-- Say goodbye. -/
  | writeClose
  | await (v : ViewerId)
  /-- Take the viewer out of the topic and tell it to close, if it is still there. -/
  | remove (t : Topic) (v : ViewerId)

def SocketCall.Reply : SocketCall → Type
  | .register _ => ViewerId
  | .ensure _ => Unit
  | .store c => c.Reply
  | .writeFirst _ => Unit
  | .write _ => Bool
  | .writeClose => Unit
  | .await _ => SocketEvent
  | .remove _ _ => Unit

/-- The requests of a connection. -/
abbrev SocketCalls : Signature :=
  ⟨SocketCall, SocketCall.Reply⟩

namespace Socket

/-- What follows a stretch of a connection's life: waiting for the next event, or nothing. -/
inductive Next where
  | again (v : ViewerId)
  | ended
deriving DecidableEq

/-- A stretch of a connection's life. -/
abbrev Stretch :=
  Program SocketCalls Next

def readView (room : RoomId) : Program SocketCalls (Except ViewError RoomView) :=
  (Operation.view room).lift fun c => .ask (.store c) .done

/-- Sends the current view of a room, if there is one. -/
def sendFirst : Topic → Program SocketCalls Unit
  | .room room =>
    (readView room).bind fun
      | .ok v => .ask (.writeFirst v.payload) .done
      | .error _ => .done ()
  | _ => .done ()

def start (t : Topic) : Stretch :=
  .ask (.register t) fun v =>
  .ask (.ensure t) fun _ =>
  (sendFirst t).bind fun _ =>
  .done (.again v)

def finish (t : Topic) (v : ViewerId) : Stretch :=
  .ask (.remove t v) fun _ => .done .ended

/-- One event in the life of a connection. -/
def round (t : Topic) (v : ViewerId) : Stretch :=
  .ask (.await v) fun
    | .inbound => .done (.again v)
    | .left => finish t v
    | .closed => finish t v
    | .payload text => .ask (.write text) fun
        | true => .done (.again v)
        | false => finish t v
    | .shutdown => .ask .writeClose fun _ => finish t v

end Socket

end Occupancy
