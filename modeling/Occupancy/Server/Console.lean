import Occupancy.Server.Run
import Occupancy.Simulation.Step

/-!
# Requests as lines of text

The operator's interface without a network. A line holds a method, a target and perhaps a body in
JSON, between single blanks; its answer is a line with the status and the body. The server between
two lines goes on for as long as there was between them, but for a day at most.
-/

namespace Occupancy.Server.Console

open Simulation

/-- The text before the first blank, and the text after it. -/
def splitAtBlank (cs : List Char) : List Char × List Char :=
  (cs.takeWhile (· ≠ ' '), (cs.dropWhile (· ≠ ' ')).drop 1)

/-- The request of a line, unless its target makes no sense. -/
def requestOf? (line : String) : Option Http.Request := do
  let (method, rest) := splitAtBlank line.toList
  let (target, body) := splitAtBlank rest
  let target ← Http.Target.read? (String.ofList target)
  some
    { method := String.ofList method
      target
      contentType := if body = [] then none else some "application/json"
      body := String.ofList body }

def statusLine (status : Nat) (body : Json.Value) : String :=
  match body with
  | .null => Decimal.text status
  | _ => Decimal.text status ++ " " ++ body.render

def lineOf : Answer → String
  | .response r => statusLine r.status r.body
  | .badTarget => statusLine 400 .null
  | _ => statusLine 500 .null

/-- Whole milliseconds. -/
def millis (w : Wait) : Nat :=
  w.nanos / 1000000

/-- The server in memory with what was opened for it. A store or a broker elsewhere is never
reached: such a store has no rooms, and such a broker refuses every connection. -/
def worldOf (r : Ready) (now : Instant) : World :=
  let w := World.new
    { publishTimeout := millis r.settings.publishTimeout
      receiveWait := millis r.settings.consumeBlock
      retry := r.settings.retry
      viewerBuffer := r.application.viewerBufferSize
      writeTimeout := millis r.application.viewerWriteTimeout } {} now
  let w := match r.application.store with
    | .memory store => { w with store }
    | .postgres => w
  let w := match r.application.broker with
    | .memory => w
    | .redis _ _ => { w with broker := w.broker.refuse UInt64.size }
  (w.run [.startLink, .startSweeper (millis r.settings.sweepInterval)]).2

def day : Nat :=
  86400 * 1000

/-- Answers a line at `now`, so many milliseconds after the one before it. -/
def answer (w : World) (now : Instant) (elapsed : Nat) (line : String) : String × World :=
  let (_, w) := w.run [.setClock now, .wait (min elapsed day)]
  let (a, w) := w.step (.http (requestOf? line))
  (lineOf a, w)

end Occupancy.Server.Console
