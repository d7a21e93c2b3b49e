import Occupancy.Session.Basic

/-!
# Statements

The statements that the store on Postgres sends, each with its SQL text and its parameters. A
statement is a value, so what it means for the tables can be said without reading SQL.
-/

namespace Occupancy.Postgres

/-- A parameter of a statement. Instants are sent in whole microseconds since 1970. -/
inductive Param where
  | null
  | integer (w : Word)
  | text (s : String)
  | bool (b : Bool)
  | instant (micros : Int)
  | uuid (u : Uuid)
  | integers (ws : List Word)
deriving DecidableEq

namespace Param

/-- An instant, cut down to what is sent. -/
def ofInstant (i : Instant) : Param :=
  .instant i.toMicros

/-- A parameter that may be absent. -/
def option {α : Type} (f : α → Param) : Option α → Param
  | none => .null
  | some a => f a

end Param

/-- A statement with parameters. -/
inductive Statement where
  | ping
  /-- Locks a room and reads its state and device. -/
  | lockRoomState (room : RoomId)
  /-- Locks a room and reads its device. -/
  | lockRoom (room : RoomId)
  /-- Looks for an open session of a room. -/
  | findOpen (room : RoomId)
  | insert (s : Session)
  /-- Locks and reads the session of a room that started last. -/
  | latest (room : RoomId)
  /-- Writes what a transition may change, if the stored session is open. -/
  | update (s : Session)
  /-- Finalizes every session whose end has come and reads them by room. -/
  | finalizeExpired (now : Instant)
  /-- Reads rooms with their devices and open sessions, by room. -/
  | views (rooms : List RoomId)
  | setActive (device : DeviceId) (active : Bool)
deriving DecidableEq

namespace Statement

def sessionColumns : String :=
  "id, room_id, customer_id, started_at, scheduled_end_at, paused_at, " ++
    "accumulated_pause_ms, status, billed_time_cost, ended_at"

/-- The SQL text of a statement. -/
def sql : Statement → String
  | .ping => "SELECT 1"
  | .lockRoomState _ => "SELECT state, device_id FROM rooms WHERE id = $1 FOR UPDATE"
  | .lockRoom _ => "SELECT device_id FROM rooms WHERE id = $1 FOR UPDATE"
  | .findOpen _ =>
    "SELECT 1 FROM room_sessions WHERE room_id = $1 AND status IN ('in_use', 'paused')"
  | .insert _ =>
    "INSERT INTO room_sessions (" ++ sessionColumns ++ ") " ++
      "VALUES ($1, $2, $3, $4, $5, NULL, 0, $6, 0, NULL)"
  | .latest _ =>
    "SELECT " ++ sessionColumns ++ " FROM room_sessions WHERE room_id = $1 " ++
      "ORDER BY started_at DESC LIMIT 1 FOR UPDATE"
  | .update _ =>
    "UPDATE room_sessions SET scheduled_end_at = $2, paused_at = $3, " ++
      "accumulated_pause_ms = $4, status = $5, ended_at = $6 " ++
      "WHERE id = $1 AND status IN ('in_use', 'paused')"
  | .finalizeExpired _ =>
    "WITH expired AS ( UPDATE room_sessions SET status = 'finalized', ended_at = $1 " ++
      "WHERE status = 'in_use' AND scheduled_end_at <= $1 RETURNING " ++ sessionColumns ++
      " ) SELECT e.*, r.device_id FROM expired e JOIN rooms r ON r.id = e.room_id " ++
      "ORDER BY e.room_id"
  | .views _ =>
    "SELECT r.id, r.branch_id, r.name, r.state, r.device_id, " ++
      "d.name AS device_name, d.owner_user_id, d.active AS device_active, " ++
      "s.id AS session_id, s.customer_id, s.started_at, s.scheduled_end_at, s.paused_at, " ++
      "s.accumulated_pause_ms, s.status, s.billed_time_cost, s.ended_at FROM rooms r " ++
      "LEFT JOIN devices d ON d.id = r.device_id LEFT JOIN LATERAL ( " ++
      "SELECT * FROM room_sessions rs " ++
      "WHERE rs.room_id = r.id AND rs.status IN ('in_use', 'paused') " ++
      "ORDER BY rs.started_at DESC LIMIT 1 ) s ON TRUE WHERE r.id = ANY($1) ORDER BY r.id"
  | .setActive _ _ => "UPDATE devices SET active = $2 WHERE id = $1"

/-- The parameters of a statement. -/
def params : Statement → List Param
  | .ping => []
  | .lockRoomState room => [.integer room]
  | .lockRoom room => [.integer room]
  | .findOpen room => [.integer room]
  | .insert s =>
    [.uuid s.id, .integer s.room, .option .integer s.customer, .ofInstant s.startedAt,
      .ofInstant s.scheduledEndAt, .text s.status.text]
  | .latest room => [.integer room]
  | .update s =>
    [.uuid s.id, .ofInstant s.scheduledEndAt, .option .ofInstant s.pausedAt,
      .integer (.ofInt s.accumulatedPause.millis), .text s.status.text,
      .option .ofInstant s.endedAt]
  | .finalizeExpired now => [.ofInstant now]
  | .views rooms => [.integers rooms]
  | .setActive device active => [.integer device, .bool active]

end Statement

/-- The tables that the store reads and writes, created where they are missing. Rooms and devices
are kept by others; the store writes sessions and the activity of devices. At most one session of a
room is open. -/
def schema : String :=
  "CREATE TABLE IF NOT EXISTS devices ( id BIGINT PRIMARY KEY, name TEXT NOT NULL, " ++
  "owner_user_id BIGINT, active BOOLEAN NOT NULL DEFAULT FALSE ); " ++
  "CREATE TABLE IF NOT EXISTS rooms ( id BIGINT PRIMARY KEY, branch_id BIGINT NOT NULL, " ++
  "name TEXT NOT NULL, state TEXT NOT NULL DEFAULT 'active' " ++
  "CHECK (state IN ('active', 'inactive', 'deleted')), " ++
  "device_id BIGINT REFERENCES devices (id) ); " ++
  "CREATE TABLE IF NOT EXISTS room_sessions ( id UUID PRIMARY KEY, " ++
  "room_id BIGINT NOT NULL REFERENCES rooms (id), customer_id BIGINT, " ++
  "started_at TIMESTAMPTZ NOT NULL, scheduled_end_at TIMESTAMPTZ NOT NULL, " ++
  "paused_at TIMESTAMPTZ, accumulated_pause_ms BIGINT NOT NULL DEFAULT 0, " ++
  "status TEXT NOT NULL CHECK (status IN ('in_use', 'paused', 'finalized', 'cancelled')), " ++
  "billed_time_cost BIGINT NOT NULL DEFAULT 0, ended_at TIMESTAMPTZ, " ++
  "CHECK (scheduled_end_at >= started_at), " ++
  "CHECK ((status = 'paused') = (paused_at IS NOT NULL)) ); " ++
  "CREATE UNIQUE INDEX IF NOT EXISTS room_sessions_one_open ON room_sessions (room_id) " ++
  "WHERE status IN ('in_use', 'paused'); " ++
  "CREATE INDEX IF NOT EXISTS room_sessions_running_by_end ON room_sessions (scheduled_end_at) " ++
  "WHERE status = 'in_use'; " ++
  "CREATE INDEX IF NOT EXISTS room_sessions_by_room ON room_sessions (room_id, started_at DESC);"

end Occupancy.Postgres
