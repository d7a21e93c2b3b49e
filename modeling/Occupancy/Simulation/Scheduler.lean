import Occupancy.Simulation.Perform

/-!
# The order of things

Tasks run one at a time, and each runs until it has to wait. Time stands still while any task can go
on; then it moves to the next moment that a task waits for, but never more than a day within one
step. The step under way is a task of its own: it goes on before the others when time has moved, and
after them otherwise.
-/

namespace Occupancy.Simulation

/-! ## Programs that follow each other -/

/-- A part of the manager's work as a task. -/
def managerProgram {α : Type} (p : Manage.Duty α) (next : α → Next) : Program Calls Next :=
  (p.lift fun c => .ask (S := Calls) (.manage c) .done).bind fun a => .done (next a)

/-- An attempt of the manager to connect. -/
def dialProgram (attempt : Nat) : Program Calls Next :=
  managerProgram (Manage.dial attempt) (.dialled attempt)

/-- An attempt to connect within a step. -/
def establishProgram (start attempt : Nat) : Program Calls Next :=
  managerProgram (Manage.dial attempt) (.establishing start attempt)

def finishProgram : Program Calls Next :=
  managerProgram Manage.finish fun _ => .answered .unit

/-- A stretch of a connection's life as a task. -/
def socketProgram (s : SocketId) (t : Topic) (p : Socket.Stretch) : Program Calls Next :=
  (p.lift fun c => .ask (S := Calls) (.socket s c) .done).bind fun n => .done (.socket s t n)

/-- A request of a sweep as part of a task. -/
def sweepCall : (c : SweepCall) → Program Calls c.Reply
  | .store c => .ask (S := Calls) (.store c) .done
  | .publish c => .ask (S := Calls) (.publish c) .done

/-- A sweep as part of a task. -/
def sweepProgram : Program Calls SweepReport :=
  Sweep.once.lift sweepCall

/-- The time of the sweep after the one that was due at `due` and came at `now`. A sweep that is
more than five milliseconds late delays all later ones. -/
def nextSweep (due now period : Nat) : Nat :=
  if due + 5 < now then now + period else due + period

/-- One turn of the sweeper: it waits for its time and sweeps, or it ends. -/
def sweeperProgram (due period : Nat) : Program Calls Next :=
  .ask (.tick due) fun
    | none => .done (.answered .unit)
    | some now => sweepProgram.bind fun _ => .done (.sweeper (nextSweep due now period) period)

/-- What follows the end of a program: another program, or the end of the task. -/
def World.follow (w : World) : Next → (Program Calls Next ⊕ Answer) × World
  | .answered a => (.inr a, w)
  | .consumer t g .again => (.inl (World.consumerProgram t g (Consume.round t g)), w)
  | .consumer _ g .stopped => (.inr .unit, { w with supervisor := w.supervisor.finish g })
  | .socket s t (.again v) => (.inl (socketProgram s t (Socket.round t v)), w)
  | .socket s _ .ended =>
    (.inr .unit, w.modifyConnection s fun c => { c with ended := true, got := c.got ++ [.ended] })
  | .dialled attempt .retry => (.inl (dialProgram (attempt + 1)), w)
  | .dialled _ .up => (.inl (managerProgram Manage.serve .served), w)
  | .dialled _ .shutdown => (.inl finishProgram, w)
  | .served true => (.inl finishProgram, w)
  | .served false => (.inl (dialProgram 0), w)
  | .establishing start attempt .retry => (.inl (establishProgram start (attempt + 1)), w)
  | .establishing start _ .up => (.inr (.established true (w.time - start)), w)
  | .establishing start _ .shutdown => (.inr (.established false (w.time - start)), w)
  | .sweeper due period => (.inl (sweeperProgram due period), w)

/-! ## Running a task -/

/-- Runs a program of a task until it has to wait or ends. A task that waits is kept with what it
waits for; the result is what follows if the program has ended. -/
def World.advance (w : World) (id : TaskId) (task : Task) :
    Program Calls Next → World × Option Next
  | .done n => (w, some n)
  | .ask c next =>
    match w.perform task c with
    | .reply r w => w.advance id { task with hold := .fresh, notice := .none } (next r)
    | .wait hold interests due w =>
      ({ w with
        tasks := w.tasks.set id { task with
          program := .ask c next
          since := w.nextSince
          notice := .none
          hold, interests, due }
        nextSince := w.nextSince + 1 }, none)

/-- Notes the result of a task and lets those go on that wait for it. -/
def World.endTask (w : World) (id : TaskId) (a : Answer) : World :=
  { w with tasks := w.tasks.erase id, results := w.results.set id a }.wake (.finished id)

/-- Runs a task until it has to wait or ends, through at most `turns` programs. -/
def World.runTask : Nat → World → TaskId → Task → World
  | 0, w, _, _ => w
  | turns + 1, w, id, task =>
    match w.advance id task task.program with
    | (w, none) => w
    | (w, some n) =>
      match w.follow n with
      | (.inl program, w) =>
        runTask turns w id { task with program, hold := .fresh, notice := .none }
      | (.inr a, w) => w.endTask id a

/-- The most programs, tasks and moments that one step goes through. -/
def maxTurns : Nat :=
  1000000000

/-- Lets a task go on. -/
def World.poll (w : World) (id : TaskId) : World :=
  match w.tasks.get? id with
  | none => w
  | some task =>
    let idle := { task with interests := [], due := none }
    { w with tasks := w.tasks.set id idle }.runTask maxTurns id idle

/-- Number of the task that is the step under way. -/
def mainTask : TaskId :=
  0

/-- Lets all tasks go on but the step under way, until each of them waits. -/
def World.drain : Nat → World → World
  | 0, w => w
  | turns + 1, w =>
    match w.ready.filter (· ≠ mainTask) with
    | [] => w
    | id :: _ => drain turns ({ w with ready := w.ready.erase id }.poll id)

/-! ## Time -/

/-- The earliest of the moments that tasks wait for. -/
def World.nextDue (w : World) : Option Nat :=
  w.tasks.entries.foldl (fun best (_, t) =>
    match best, t.due with
    | none, due => due
    | best, none => best
    | some a, some b => some (min a b)) none

/-- Moves time and lets those go on whose moment has come: by moment, then by how long they have
waited. -/
def World.moveTo (w : World) (time : Nat) : World :=
  let due := w.tasks.entries.filter fun (_, t) => t.due.any fun due => due ≤ time
  let order := due.mergeSort fun a b =>
    let x := a.2.due.getD 0
    let y := b.2.due.getD 0
    if x = y then a.2.since ≤ b.2.since else x ≤ y
  order.foldl (fun w (id, _) => w.enqueue id) { w with time }

/-- The longest time that a step may take, in milliseconds: a day. -/
def stepLimit : Nat :=
  86400000

/-- Gives the step under way up. What it had been told alone is passed on. -/
def World.abandon (w : World) : World :=
  match w.tasks.get? mainTask with
  | none => w
  | some task =>
    ({ w with
      tasks := w.tasks.erase mainTask
      ready := w.ready.erase mainTask }).passOn task.hold task.notice

/-- Runs the step under way to its end, or gives it up at the time `limit`. -/
def World.runMain : Nat → World → Nat → Answer × World
  | 0, w, _ => (.stuck, w.abandon)
  | turns + 1, w, limit =>
    let w := if mainTask ∈ w.ready then
        { w with ready := w.ready.erase mainTask }.poll mainTask
      else w
    match w.results.get? mainTask with
    | some a => (a, { w with results := w.results.erase mainTask })
    | none =>
      let w := w.drain maxTurns
      if mainTask ∈ w.ready then runMain turns w limit
      else
        match w.nextDue with
        | none => (.stuck, { w.abandon with time := limit })
        | some due =>
          if limit < due then (.stuck, { w.abandon with time := limit })
          else runMain turns (w.moveTo due) limit

/-- Runs a program as the step under way, and then all tasks until each of them waits. -/
def World.runProgram (w : World) (program : Program Calls Next) : Answer × World :=
  let w := { w with
    tasks := w.tasks.set mainTask { program, endsSeen := w.ends }
    ready := w.ready ++ [mainTask] }
  let (a, w) := w.runMain maxTurns (w.time + stepLimit)
  (a, w.drain maxTurns)

end Occupancy.Simulation
