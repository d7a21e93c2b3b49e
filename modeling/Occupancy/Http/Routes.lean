import Occupancy.Fanout.Link
import Occupancy.Http.MediaType
import Occupancy.Http.ViewerQuery
import Occupancy.Operation.Engine

/-!
# The operator's interface

Which request does what. Every route that changes a room commits the change, reads the room again,
hands the fresh view to the publisher and answers with it. Faults of a request are found in this
order: unknown path, wrong method, bad room number, wrong content type, bad body.
-/

namespace Occupancy.Http

open Json

structure Request where
  method : String
  target : Target
  contentType : Option String
  body : String

/-- An answer: a status, and a body unless the answer has none of its own. -/
structure Response where
  status : Nat
  body : Value

namespace Response

/-- An answer without a body of its own. -/
def bare (status : Nat) : Response :=
  ⟨status, .null⟩

/-- A successful answer. -/
def ok (body : Value) : Response :=
  ⟨200, body⟩

end Response

/-- The status for a failed request. -/
def errorStatus : RoomError → Nat
  | .notFound _ => 404
  | .invalidState _ _ _ => 409
  | .conflict _ => 409
  | .invalidInput _ => 400
  | .transport _ => 503
  | .internal _ => 500

/-- The answer to a failed request. -/
def Response.ofError (e : RoomError) : Response :=
  ⟨errorStatus e, .object [("errorType", .text e.kind), ("message", .text e.message)]⟩

/-! ## Bodies -/

/-- The body of a request to open a session. -/
structure AssignRequest where
  room : RoomId
  customer : Option Word
  duration : Word

/-- A request to open a session of which some fields have been read. -/
structure AssignRequest.Draft where
  room : Option RoomId := none
  customer : Option (Option Word) := none
  duration : Option Word := none

/-- The fields of a request to open a session. -/
def AssignRequest.fields : List (Member AssignRequest.Draft) :=
  [.of "roomId" Tree.readWord (·.room) fun d v => { d with room := some v },
   .of "customerId" (Tree.readOption Tree.readWord) (·.customer)
    (fun d v => { d with customer := some v }) true,
   .of "durationSeconds" Tree.readWord (·.duration) fun d v => { d with duration := some v }]

/-- Reads a request to open a session. -/
def AssignRequest.read : Reader AssignRequest :=
  readRecord AssignRequest.fields {} fun d => do
    some ⟨← d.room, d.customer.getD none, ← d.duration⟩

/-- Reads the seconds of a request to extend or reduce a session. -/
def readDelta : Reader Word :=
  readRecord [.of "deltaSeconds" Tree.readWord id fun _ v => some v] none id

/-- Takes the body of a request, or the answer that refuses it. -/
def takeBody {α : Type} (read : Reader α) (r : Request) : Except Response α :=
  if !(r.contentType.map MediaType.isJson).getD false then .error (.bare 415)
  else
    match readText read r.body with
    | .ok a => .ok a
    | .error .malformed => .error (.bare 400)
    | .error .mismatch => .error (.bare 422)

/-! ## What the routes do -/

inductive RouteCall where
  | store (c : StoreCall)
  /-- Hand a view to the publisher, without waiting. -/
  | broadcast (v : RoomView)
  | health

/-- The load of the server, as it is reported. -/
structure Health where
  link : LinkState
  viewers : Nat
  consumers : Nat

def RouteCall.Reply : RouteCall → Type
  | .store c => c.Reply
  | .broadcast _ => Unit
  | .health => Health

abbrev RouteCalls : Signature :=
  ⟨RouteCall, RouteCall.Reply⟩

abbrev Handler :=
  Program RouteCalls Response

/-- An operator action as part of a route. -/
def ofAction {α : Type} (p : Operation.Action α) : Program RouteCalls α :=
  p.lift fun c => .ask (.store c) .done

/-- The answer to a view that could not be read. -/
def Response.ofViewError : ViewError → Response
  | .refused e => .ofError e
  | .overflow => .bare 500

/-- Reads a room again, hands its view to the publisher and answers with `body` of it. -/
def publishRoom (room : RoomId) (body : RoomView → Value) : Handler :=
  (ofAction (Operation.view room)).bind fun
    | .error e => .done (.ofViewError e)
    | .ok v => .ask (.broadcast v) fun _ => .done (.ok (body v))

def assign (q : AssignRequest) : Handler :=
  (ofAction (Operation.assign q.room q.customer q.duration)).bind fun
    | .error e => .done (.ofError e)
    | .ok id => publishRoom q.room fun v =>
        .object [("sessionId", .text id.text), ("room", v.toJson)]

def transition (room : RoomId) (t : Transition) : Handler :=
  (ofAction (Operation.transition room t)).bind fun
    | .error e => .done (.ofError e)
    | .ok _ => publishRoom room RoomView.toJson

/-- Answers with the view of a room. -/
def showRoom (room : RoomId) : Handler :=
  (ofAction (Operation.view room)).bind fun
    | .error e => .done (.ofViewError e)
    | .ok v => .done (.ok v.toJson)

/-- Answers with the load of the server. -/
def showHealth : Handler :=
  .ask .health fun (h : Health) =>
  .done (.ok (.object
    [("status", .text "ok"), ("broker", .text h.link.word), ("viewers", .natural h.viewers),
     ("consumers", .natural h.consumers)]))

/-! ## Which route -/

/-- The places that requests can go to. -/
inductive Route where
  | viewers
  | health
  | assign
  | pause (room : List Char)
  | resume (room : List Char)
  | cancel (room : List Char)
  | finalize (room : List Char)
  | extend (room : List Char)
  | view (room : List Char)
deriving DecidableEq

namespace Route

/-- The route with a path, if there is one. Room numbers are any nonempty segment at first. -/
def ofPath? (t : Target) : Option Route :=
  match t.segments.map String.ofList with
  | ["ws"] => some .viewers
  | ["health"] => some .health
  | ["assign"] => some .assign
  | [name, room] =>
    let room := room.toList
    if room = [] then none
    else if name = "pause" then some (.pause room)
    else if name = "resume" then some (.resume room)
    else if name = "cancel" then some (.cancel room)
    else if name = "finalize" then some (.finalize room)
    else if name = "extend" then some (.extend room)
    else if name = "rooms" then some (.view room)
    else none
  | _ => none

def method : Route → String
  | .viewers => "GET"
  | .health => "GET"
  | .assign => "POST"
  | .pause _ => "PATCH"
  | .resume _ => "PATCH"
  | .cancel _ => "PATCH"
  | .finalize _ => "PATCH"
  | .extend _ => "PATCH"
  | .view _ => "GET"

/-- Does a route answer a method? One that answers `GET` also answers `HEAD`. -/
def accepts (r : Route) (method : String) : Bool :=
  method = r.method || (method = "HEAD" && r.method = "GET")

end Route

/-- Goes on with the number of a room, if it is one. -/
def withRoom (room : List Char) (handler : RoomId → Handler) : Handler :=
  match Target.readId? room with
  | some id => handler id
  | none => .done (.bare 400)

/-- What a route does with a request whose method it answers. A viewer's connection cannot be opened
by a plain request. -/
def Route.handle (route : Route) (r : Request) : Handler :=
  match route with
  | .viewers => .done (.bare (if r.method = "GET" then 400 else 405))
  | .health => showHealth
  | .assign =>
    match takeBody AssignRequest.read r with
    | .ok q => Http.assign q
    | .error response => .done response
  | .pause room => withRoom room fun id => transition id .pause
  | .resume room => withRoom room fun id => transition id .resume
  | .cancel room => withRoom room fun id => transition id .cancel
  | .finalize room => withRoom room fun id => transition id .finalize
  | .extend room => withRoom room fun id =>
    match takeBody readDelta r with
    | .ok delta => transition id (.extend delta)
    | .error response => .done response
  | .view room => withRoom room showRoom

/-- What the server does with a request. Requests for the options of any path succeed, and answers to
`HEAD` have no body. -/
def handle (r : Request) : Handler :=
  if r.method = "OPTIONS" then .done (.bare 200)
  else
    match Route.ofPath? r.target with
    | none => .done (.bare 404)
    | some route =>
      if !route.accepts r.method then .done (.bare 405)
      else if r.method = "HEAD" then
        (route.handle r).bind fun response => .done (.bare response.status)
      else route.handle r

/-! ## Viewers -/

/-- What the server does with a request to open a viewer's connection: the topic of the viewer, or
an answer. -/
def openViewer (t : Target) : Except Response Topic :=
  match ViewerQuery.read? (t.query.getD []) with
  | none => .error (.bare 400)
  | some q =>
    match q.topic with
    | .ok topic => .ok topic
    | .error e => .error (.ofError e)

end Occupancy.Http
