import Occupancy.Proofs.Store.Commands

/-!
# Devices of a store

A store logs every change of a device, and a device shows the last change that the log has for it.
Operator actions give a store four kinds of commands; none of them changes which device a room is
linked to, and a device that is known stays known.
-/

namespace Occupancy

/-- The activities that a log of changes sets on one device, oldest first. -/
def activities (device : DeviceId) (toggles : List (DeviceId × Bool)) : List Bool :=
  (toggles.filter (·.1 = device)).map (·.2)

@[simp] theorem activities_nil (device : DeviceId) : activities device [] = [] :=
  rfl

@[simp] theorem activities_append (device : DeviceId) (ts us : List (DeviceId × Bool)) :
    activities device (ts ++ us) = activities device ts ++ activities device us := by
  simp [activities]

theorem activities_cons (device d : DeviceId) (active : Bool) (rest : List (DeviceId × Bool)) :
    activities device ((d, active) :: rest) =
      if d = device then active :: activities device rest else activities device rest := by
  by_cases h : d = device
  · simp [activities, h]
  · simp [activities, h]

/-- The commands of operator actions. -/
def Command.Operates : Command → Prop
  | .assign _ _ _ _ _ => True
  | .apply _ _ _ => True
  | .finalizeExpired _ => True
  | .bill _ _ => False
  | .insertRoom _ => False
  | .insertDevice _ => False
  | .setActive _ _ => True

@[simp] theorem RoomRecord.settle_room (r : RoomRecord) (now : Instant) :
    (r.settle now).room = r.room := by
  cases h : r.expired? now with
  | none => rw [settle_of_unexpired h]
  | some session => rw [settle_of_expired h, replaceCurrent]

namespace Store

variable {s : Store} {c : Command}

/-! ## Rooms keep their descriptions -/

theorem description_set {key : RoomId} {r r' : RoomRecord} (hr : s.rooms.get? key = some r)
    (same : r'.room = r.room) (room : RoomId) :
    ((s.rooms.set key r').get? room).map (·.room) = (s.rooms.get? room).map (·.room) := by
  rw [Table.get?_set]
  split
  · rename_i hkey
    rw [hkey, hr, Option.map_some, Option.map_some, same]
  · rfl

/-- An operator action leaves the description of every room. -/
theorem description_execute (s : Store) (operates : c.Operates) (room : RoomId) :
    ((s.execute c).2.rooms.get? room).map (·.room) = (s.rooms.get? room).map (·.room) := by
  obtain ⟨o, s', hexecute, h⟩ := s.exists_executes c
  rw [hexecute]
  cases h with
  | refused => rfl
  | assigned found => exact description_set found (by rfl) room
  | applied found => exact description_set found (by rfl) room
  | finalized now =>
    -- a batch touches histories only
    rw [get?_finalizeExpired, Option.map_map]
    cases s.rooms.get? room with
    | none => rfl
    | some r => exact congrArg some (r.settle_room now)
  | billed => exact operates.elim
  | described => exact operates.elim
  | installed => exact operates.elim
  | switched => rfl

/-- A record after an operator action has the description of one before it. -/
theorem exists_record_before (h : c.Operates) {room : RoomId} {r' : RoomRecord}
    (hr' : (s.execute c).2.rooms.get? room = some r') :
    ∃ r, s.rooms.get? room = some r ∧ r.room = r'.room := by
  have hsame := s.description_execute h room
  rw [hr'] at hsame
  exact Option.map_eq_some_iff.mp hsame.symm

/-! ## Devices show what was logged last -/

/-- What an operator action does to the devices: nothing, or one logged change. -/
theorem devices_execute (s : Store) (operates : c.Operates) :
    ((s.execute c).2.devices = s.devices ∧ (s.execute c).2.toggles = s.toggles) ∨
    ∃ device active d, c = .setActive device active ∧ s.devices.get? device = some d ∧
      (s.execute c).2.devices = s.devices.set device { d with active } ∧
      (s.execute c).2.toggles = s.toggles ++ [(device, active)] := by
  obtain ⟨o, s', hexecute, h⟩ := s.exists_executes c
  rw [hexecute]
  cases h with
  | refused => exact .inl ⟨rfl, rfl⟩
  | assigned => exact .inl ⟨rfl, rfl⟩
  | applied => exact .inl ⟨rfl, rfl⟩
  | finalized => exact .inl ⟨rfl, rfl⟩
  | billed => exact operates.elim
  | described => exact operates.elim
  | installed => exact operates.elim
  | switched found => exact .inr ⟨_, _, _, rfl, found, rfl, rfl⟩

/-- Every device shows the last activity that was logged for it. -/
def Faithful (s : Store) : Prop :=
  ∀ d device, s.devices.get? d = some device →
    ∀ active, (activities d s.toggles).getLast? = some active → device.active = active

theorem Faithful.execute (hs : s.Faithful) (h : c.Operates) : (s.execute c).2.Faithful := by
  intro d device hd active hlast
  rcases s.devices_execute h with ⟨hdevices, htoggles⟩ | ⟨key, set, old, -, -, hdevices, htoggles⟩
  · rw [hdevices] at hd
    rw [htoggles] at hlast
    exact hs d device hd active hlast
  · -- the change is the last of its own device and passes the others by
    rw [hdevices, Table.get?_set] at hd
    rw [htoggles, activities_append, activities_cons, activities_nil] at hlast
    split at hd
    · rename_i hkey
      cases hd
      rw [if_pos hkey.symm] at hlast
      simpa using hlast
    · rename_i hkey
      rw [if_neg (Ne.symm hkey), List.append_nil] at hlast
      exact hs d device hd active hlast

/-! ## Links -/

/-- Every room is linked to a device of its own, and the store knows the device. -/
structure Linked (s : Store) : Prop where
  known : ∀ {room r}, s.rooms.get? room = some r →
    ∃ d device, r.room.device = some d ∧ s.devices.get? d = some device
  own : ∀ {room room' r r' d}, s.rooms.get? room = some r → s.rooms.get? room' = some r' →
    r.room.device = some d → r'.room.device = some d → room = room'

/-- Operator actions keep the links. -/
theorem Linked.execute (hs : s.Linked) (h : c.Operates) : (s.execute c).2.Linked := by
  constructor
  · -- a known device stays known, whatever its flag
    intro room r' hr'
    obtain ⟨r, hr, hroom⟩ := exists_record_before h hr'
    obtain ⟨d, device, hd, hdevice⟩ := hs.known hr
    rw [hroom] at hd
    rcases s.devices_execute h with ⟨hdevices, -⟩ | ⟨key, set, old, -, -, hdevices, -⟩
    · exact ⟨d, device, hd, by rw [hdevices, hdevice]⟩
    · rw [hdevices]
      by_cases hkey : d = key
      · exact ⟨d, { old with active := set }, hd, by rw [Table.get?_set, if_pos hkey]⟩
      · exact ⟨d, device, hd, by rw [Table.get?_set, if_neg hkey, hdevice]⟩
  · -- the descriptions are those from before the command
    intro room room' r₁ r₂ d hr₁ hr₂ hd₁ hd₂
    obtain ⟨r, hr, hroom⟩ := exists_record_before h hr₁
    obtain ⟨r', hr', hroom'⟩ := exists_record_before h hr₂
    exact hs.own hr hr' (by rw [hroom, hd₁]) (by rw [hroom', hd₂])

end Store

end Occupancy
