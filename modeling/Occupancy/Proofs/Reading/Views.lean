import Occupancy.Proofs.Reading.Identifiers
import Occupancy.Proofs.Reading.Timestamps
import Occupancy.View

/-!
# Views are read back

Main statement: `RoomView.payload_reads_back`. What is sent of a view is read as that view. A record is read member
by member, each of which is taken by the field of its name (`readMembers_of`).
-/

namespace Occupancy

open Json

namespace Json

/-! ## Scalars -/

theorem Number.toInt?_ofInt (i : Int) : (Number.ofInt i).toInt? = some i := by
  rw [Number.ofInt]
  by_cases h : i < 0
  · obtain ⟨n, hn⟩ : ∃ n, i.natAbs = n + 1 := Nat.exists_eq_succ_of_ne_zero (by omega)
    simp only [h, decide_true, hn, Number.toInt?]
    exact congrArg some (by omega)
  · simp only [h, decide_false, Number.toInt?]
    exact congrArg some (by omega)

theorem readWord_word (w : Word) : Tree.readWord (Tree.ofValue (.word w)) = .ok w := by
  simp [Tree.readWord, Tree.readInteger, Value.word, Tree.ofValue, Number.toInt?_ofInt, Decimal.word?_toInt]

theorem readText_text (s : String) : Tree.readText (Tree.ofValue (.text s)) = .ok s :=
  rfl

theorem readBool_bool (b : Bool) : Tree.readBool (Tree.ofValue (.bool b)) = .ok b :=
  rfl

variable {α β δ : Type}

theorem readAs_text {accept : String → Option α} {s : String} {a : α} (h : accept s = some a) :
    Tree.readAs accept (Tree.ofValue (.text s)) = .ok a := by
  simp [Tree.readAs, Tree.ofValue, h]

theorem readName_text {accept : String → Option α} {s : String} {a : α} (h : accept s = some a) :
    Tree.readName accept (Tree.ofValue (.text s)) = .ok a := by
  simp [Tree.readName, Tree.ofValue, h]

/-- A value that may be absent is read back, if it is not written as null when it is present. -/
theorem readOption_option {read : Reader α} {write : α → Value} {o : Option α}
    (hnull : ∀ a ∈ o, Tree.ofValue (write a) ≠ .null) (hread : ∀ a ∈ o, read (Tree.ofValue (write a)) = .ok a) :
    Tree.readOption read (Tree.ofValue (.option write o)) = .ok o := by
  cases o with
  | none => rfl
  | some a =>
    rw [Value.option, Tree.readOption, hread a rfl]
    · rfl
    · exact hnull a rfl

theorem readOption_word (w : Option Word) :
    Tree.readOption Tree.readWord (Tree.ofValue (.option .word w)) = .ok w :=
  readOption_option (fun _ _ => nofun) fun a _ => readWord_word a

/-! ## Records -/

/-- A member whose key is that of a field is taken by it. -/
theorem readMembers_of {fields : List (Member δ)} {name : String} {read : Reader β}
    {given : δ → Option β} {keep : δ → β → δ} {mayEnd : Bool} {v : Value} {rest : List (String × Value)}
    {d : δ} {b : β}
    (hfield : fields.find? (·.name = name) = some (.of name read given keep mayEnd)) (hgiven : given d = none)
    (hread : read (Tree.ofValue v) = .ok b) :
    readMembers fields (Members.ofFields ((name, v) :: rest)) d =
      readMembers fields (Members.ofFields rest) (keep d b) := by
  simp [Members.ofFields, readMembers, hfield, Member.of, hgiven, hread, Except.map]

theorem readRecord_object {fields : List (Member δ)} {members : List (String × Value)} {empty d : δ}
    {finish : δ → Option α} {a : α} (hmembers : readMembers fields (Members.ofFields members) empty = .ok d)
    (hfinish : finish d = some a) :
    readRecord fields empty finish (Tree.ofValue (.object members)) = .ok a := by
  simp [readRecord, Tree.ofValue, hmembers, hfinish, bind, Except.bind]

end Json

theorem RoomState.ofText?_text (s : RoomState) : RoomState.ofText? s.text = some s := by
  cases s <;> rfl

theorem SessionStatus.ofText?_text (s : SessionStatus) : SessionStatus.ofText? s.text = some s := by
  cases s <;> rfl

theorem Uuid.read_text (u : Uuid) : Uuid.read (Tree.ofValue (.text u.text)) = .ok u :=
  readAs_text (Uuid.read?_text u)

theorem Timestamp.read_toJson {t : Timestamp} (h : t.leap = false) :
    Timestamp.read (Tree.ofValue t.toJson) = .ok t := by
  obtain ⟨i, leap⟩ := t
  subst h
  exact readAs_text (Timestamp.read?_text i)

/-! ## Views -/

/-- A device is read back. -/
theorem Device.read_toJson (d : Device) : Device.read (Tree.ofValue d.toJson) = .ok d := by
  refine readRecord_object (d := ⟨some d.id, some d.name, some d.owner, some d.active⟩) ?_ rfl
  refine (readMembers_of rfl rfl (readWord_word _)).trans ?_
  refine (readMembers_of rfl rfl (readText_text _)).trans ?_
  refine (readMembers_of rfl rfl (readOption_word _)).trans ?_
  refine (readMembers_of rfl rfl (readBool_bool _)).trans ?_
  rfl

/-- No instant of the view lies in an inserted second. -/
structure SessionView.IsRegular (s : SessionView) : Prop where
  startedAt : s.startedAt.leap = false
  scheduledEndAt : s.scheduledEndAt.leap = false
  pausedAt : ∀ t ∈ s.pausedAt, t.leap = false

/-- No instant of the view lies in an inserted second. -/
structure RoomView.IsRegular (v : RoomView) : Prop where
  session : ∀ s ∈ v.session, s.IsRegular
  generatedAt : v.generatedAt.leap = false

/-- The view of a session is read back. -/
theorem SessionView.read_toJson {s : SessionView} (h : s.IsRegular) :
    SessionView.read (Tree.ofValue s.toJson) = .ok s := by
  have hpaused : Tree.readOption Timestamp.read (Tree.ofValue (.option Timestamp.toJson s.pausedAt)) =
      .ok s.pausedAt :=
    readOption_option (fun _ _ => nofun) fun t ht => Timestamp.read_toJson (h.pausedAt t ht)
  refine readRecord_object (d := ⟨some s.id, some s.customer, some s.status, some s.startedAt,
    -- the members come in the order they are written in, and each is read by its own reader
    some s.scheduledEndAt, some s.pausedAt, some s.accumulatedPauseSeconds, some s.billedTimeCost⟩) ?_ rfl
  refine (readMembers_of rfl rfl (Uuid.read_text _)).trans ?_
  refine (readMembers_of rfl rfl (readOption_word _)).trans ?_
  refine (readMembers_of rfl rfl (readName_text (SessionStatus.ofText?_text _))).trans ?_
  refine (readMembers_of rfl rfl (Timestamp.read_toJson h.startedAt)).trans ?_
  refine (readMembers_of rfl rfl (Timestamp.read_toJson h.scheduledEndAt)).trans ?_
  refine (readMembers_of rfl rfl hpaused).trans ?_
  refine (readMembers_of rfl rfl (readWord_word _)).trans ?_
  refine (readMembers_of rfl rfl (readWord_word _)).trans ?_
  rfl

/-- A view is read back. -/
theorem RoomView.read_toJson {v : RoomView} (h : v.IsRegular) :
    RoomView.read (Tree.ofValue v.toJson) = .ok v := by
  have hdevice : Tree.readOption Device.read (Tree.ofValue (.option Device.toJson v.device)) = .ok v.device :=
    readOption_option (fun _ _ => nofun) fun d _ => Device.read_toJson d
  have hsession : Tree.readOption SessionView.read (Tree.ofValue (.option SessionView.toJson v.session)) =
      .ok v.session :=
    readOption_option (fun _ _ => nofun) fun s hs => SessionView.read_toJson (h.session s hs)
  refine readRecord_object (d := ⟨some v.room, some v.branch, some v.name, some v.state, some v.device,
    some v.session, some v.elapsedBillableSeconds, some v.remainingSeconds, some v.generatedAt⟩) ?_ rfl
  -- member by member, as for the session
  refine (readMembers_of rfl rfl (readWord_word _)).trans ?_
  refine (readMembers_of rfl rfl (readWord_word _)).trans ?_
  refine (readMembers_of rfl rfl (readText_text _)).trans ?_
  refine (readMembers_of rfl rfl (readName_text (RoomState.ofText?_text _))).trans ?_
  refine (readMembers_of rfl rfl hdevice).trans ?_
  refine (readMembers_of rfl rfl hsession).trans ?_
  refine (readMembers_of rfl rfl (readOption_word _)).trans ?_
  refine (readMembers_of rfl rfl (readOption_word _)).trans ?_
  refine (readMembers_of rfl rfl (Timestamp.read_toJson h.generatedAt)).trans ?_
  rfl

/-- **Views are read back.** What is sent of a view is read as that view. -/
theorem RoomView.payload_reads_back {v : RoomView} (h : v.IsRegular) :
    RoomView.ofText? v.payload = some v := by
  rw [RoomView.ofText?, RoomView.payload, readText, ofText_render]
  simp only [RoomView.read_toJson h]
  rfl

/-- A view with instants at both ends of the calendar, the least and the greatest word, and a name that needs
all kinds of escapes. -/
def RoomView.outermost : RoomView where
  room := Int64.minValue
  branch := Int64.maxValue
  name := "\x00\n\"\\ \u00e9\u4e16"
  state := .deleted
  device := some ⟨0, "", none, true⟩
  session := some
    { id := .ofNat (2 ^ 128 - 1)
      customer := some (-1)
      status := .paused
      startedAt := (⟨-8334601228800 * 1000000000, by decide⟩ : Instant)
      scheduledEndAt := Instant.last
      pausedAt := some (⟨-1, by decide⟩ : Instant)
      accumulatedPauseSeconds := 0
      billedTimeCost := 10 }
  elapsedBillableSeconds := none
  remainingSeconds := some Int64.maxValue
  generatedAt := Instant.epoch

theorem RoomView.payload_reads_back_outermost : RoomView.outermost.IsRegular ∧
    RoomView.ofText? RoomView.outermost.payload = some RoomView.outermost := by
  have hregular : RoomView.outermost.IsRegular := by
    refine ⟨?_, rfl⟩
    rintro s ⟨⟩
    refine ⟨rfl, rfl, ?_⟩
    rintro t ⟨⟩
    rfl
  exact ⟨hregular, RoomView.payload_reads_back hregular⟩

end Occupancy
