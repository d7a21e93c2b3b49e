import Occupancy.Proofs.Session.Billing

/-!
# The booked time stays within the limit, to the second

The booked time of a session is the time from its start to its scheduled end without its pauses. An
extension is checked against the limit in whole seconds, so the limit is exact only where the booked time
is a whole number of seconds. Bookings, pauses and resumptions keep it so, and so do extensions and
reductions, with one exception: a reduction that is cut at the start leaves a booked time of minus the
pauses. Main statement: `booked_to_the_second`; `not_always_within_limit` shows what a cut can lead to.
-/

namespace Occupancy

namespace Session

/-! ## Booked time -/

/-- The booked time in nanoseconds: from the start to the scheduled end, without the pauses. -/
def bookedTime (s : Session) : Int :=
  s.scheduledEndAt.nanos - s.startedAt.nanos - s.accumulatedPause.nanos

/-- The longest time that can be booked, in nanoseconds. -/
def bookingLimit : Int :=
  maxBookedSeconds * 1000000000

/-- The booked time if the scheduled end were the last of all instants. -/
def reach (s : Session) : Int :=
  Instant.last.nanos - s.startedAt.nanos - s.accumulatedPause.nanos

variable {s next : Session} {now : Instant} {delta : Word} {ending : Instant}

theorem bookedTime_le_reach (s : Session) : s.bookedTime ≤ s.reach := by
  have hlast := Instant.le_iff.mp s.scheduledEndAt.le_last
  unfold bookedTime reach
  omega

/-! ## What an extension does -/

/-- An end is shifted exactly, but not before the start. An extension is refused where there is no such
instant, and where the whole seconds of the booked time exceed the limit. -/
theorem shiftedEnd_eq_ok_iff (started : s.startedAt ≤ s.scheduledEndAt)
    (hpause : 0 ≤ s.accumulatedPause.nanos) :
    s.shiftedEnd delta = .ok ending ↔
      ending.nanos = max s.startedAt.nanos (s.scheduledEndAt.nanos + delta.toInt * 1000000000) ∧
      (0 < delta.toInt →
        ending.nanos - s.startedAt.nanos - s.accumulatedPause.nanos < bookingLimit + 1000000000) := by
  have hstart := Instant.le_iff.mp started
  have hlimit : bookingLimit = maxBookedSeconds * 1000000000 := rfl
  unfold shiftedEnd
  cases hmoved : (Span.ofSeconds? delta.toInt).bind s.scheduledEndAt.add? with
  | none =>
    -- there is no instant at the new end, which is then outside of the calendar
    have hnone : ∀ b : Instant, b.nanos ≠ s.scheduledEndAt.nanos + delta.toInt * 1000000000 := by
      intro b hb
      rw [Instant.bind_add?_eq_some_iff.mpr hb] at hmoved
      cases hmoved
    dsimp only
    split
    · -- a cut reduction ends at the start
      rename_i reduction
      have hbefore : s.scheduledEndAt.nanos + delta.toInt * 1000000000 < s.startedAt.nanos := by
        have hend := s.scheduledEndAt.inRange
        have hrange := s.startedAt.inRange
        exact Int.lt_of_not_ge fun hafter => hnone ⟨_, by omega⟩ rfl
      rw [Int.max_eq_left (Int.le_of_lt hbefore), Except.ok.injEq]
      constructor
      · rintro rfl
        exact ⟨rfl, fun extension => absurd extension (by omega)⟩
      · rintro ⟨hending, -⟩
        exact (Instant.eq_of_nanos_eq hending).symm
    · -- an extension beyond the calendar fails
      rename_i extension
      constructor
      · intro h
        cases h
      · rintro ⟨hending, -⟩
        rw [Int.max_eq_right (by omega)] at hending
        exact absurd hending (hnone ending)
  | some moved =>
    have hend := Instant.bind_add?_eq_some_iff.mp hmoved
    have hlater := moved.nanos_later s.startedAt
    -- the difference that is checked is a span
    obtain ⟨booked, hbooked⟩ :
        ∃ booked, (moved.later s.startedAt - s.startedAt).sub? s.accumulatedPause = some booked := by
      have hrange := (moved.later s.startedAt - s.startedAt).inRange
      have hpauseRange := s.accumulatedPause.inRange
      rw [Instant.nanos_sub] at hrange
      exact Span.exists_sub? (by rw [Instant.nanos_sub]; omega) (by rw [Instant.nanos_sub]; omega)
    have hnanos := Span.sub?_eq_some_iff.mp hbooked
    have hseconds := Span.seconds_le_iff (a := booked) (n := maxBookedSeconds)
    rw [Instant.nanos_sub] at hnanos
    dsimp only
    rw [hbooked, Option.getD_some, ← hend, Int.max_comm, ← hlater]
    split
    · rename_i overbooked
      constructor
      · intro h
        cases h
      · rintro ⟨hending, hbound⟩
        have hbound := hbound overbooked.1
        omega
    · rename_i fits
      rw [Except.ok.injEq]
      constructor
      · rintro rfl
        refine ⟨rfl, fun extension => ?_⟩
        have hfits : booked.seconds ≤ maxBookedSeconds := by omega
        have hbound := hseconds.mp hfits
        omega
      · rintro ⟨hending, -⟩
        exact (Instant.eq_of_nanos_eq hending).symm

/-- An extension or reduction changes the scheduled end of a session in use, and nothing else. -/
theorem apply_extend_eq_ok_iff :
    s.apply (.extend delta) now = .ok next ↔
      s.status = .inUse ∧
        ∃ ending, s.shiftedEnd delta = .ok ending ∧ next = { s with scheduledEndAt := ending } := by
  unfold apply
  cases hstatus : s.status with
  | inUse =>
    cases hshift : s.shiftedEnd delta with
    | error e => simp [hshift, Except.map]
    | ok ending => simp [hshift, Except.map, eq_comm]
  | paused | finalized | cancelled => simp

/-- The booked time after an extension or reduction: moved by whole seconds, unless the end is cut. -/
theorem bookedTime_shifted (hs : s.WellFormed) (shifted : s.shiftedEnd delta = .ok ending) :
    ({ s with scheduledEndAt := ending } : Session).bookedTime =
      max (-s.accumulatedPause.nanos) (s.bookedTime + delta.toInt * 1000000000) := by
  obtain ⟨hending, -⟩ := (shiftedEnd_eq_ok_iff hs.start_le_end hs.pause_nonneg).mp shifted
  simp only [bookedTime]
  omega

/-! ## What a resumption does -/

/-- A resumption keeps the booked time. Where the end saturates, the session is booked to the end of the
calendar, which is no more than before; where the pauses saturate, nothing can be booked any more. -/
theorem bookedTime_resumed_cases (s : Session) (now : Instant) :
    (s.resumed now).bookedTime = s.bookedTime ∨
    ((s.resumed now).bookedTime = (s.resumed now).reach ∧ (s.resumed now).reach ≤ s.bookedTime) ∨
    (s.resumed now).reach ≤ 0 := by
  have hpause := s.pauseSoFar_nonneg now
  have hend := s.scheduledEndAt.inRange
  have hstart := s.startedAt.inRange
  have hlast : Instant.last.nanos = 8210266876800 * 1000000000 - 1 := rfl
  cases hsum : s.accumulatedPause.add? (s.pauseSoFar now) with
  | none =>
    -- the longest span takes every session out of the calendar
    right
    right
    have hlongest : Span.longest.nanos = 9223372036854775807000000 := rfl
    simp only [reach, resumed, Span.saturatingAdd, hsum, Option.getD_none]
    omega
  -- the booked time is kept unless the calendar cuts the end that is moved with it
  | some total =>
    have htotal := Span.add?_eq_some_iff.mp hsum
    have hpauses : (s.resumed now).accumulatedPause = total := Span.saturatingAdd_of_add? hsum
    have hstarted : (s.resumed now).startedAt = s.startedAt := rfl
    cases hmoved : s.scheduledEndAt.add? (s.pauseSoFar now) with
    | none =>
      right
      left
      have hbeyond := Instant.last_lt_of_add?_eq_none hmoved hpause
      have hending : (s.resumed now).scheduledEndAt = .last := by simp [resumed, hmoved]
      constructor
      · rw [bookedTime, reach, hending]
      · rw [bookedTime, reach, hpauses, hstarted]
        omega
    | some moved =>
      left
      have hbehind := Instant.add?_eq_some_iff.mp hmoved
      have hending : (s.resumed now).scheduledEndAt = moved := by simp [resumed, hmoved]
      rw [bookedTime, bookedTime, hending, hpauses, hstarted]
      omega

/-- Pauses only add up, so that less and less can be booked. -/
theorem Move.reach_le (hm : Move s now next) : next.reach ≤ s.reach := by
  have hpause := Span.le_saturatingAdd (a := s.accumulatedPause) (s.pauseSoFar_nonneg now)
  cases hm with
  | pause | extend => exact Int.le_refl _
  | resume =>
    simp only [reach, resumed]
    omega
  | close =>
    simp only [reach, Session.close]
    omega

/-! ## Less than a second over the limit -/

/-- No move exceeds the limit by a second or more. -/
theorem Move.bookedTime_lt (hm : Move s now next) (hs : s.WellFormed)
    (h : s.bookedTime < bookingLimit + 1000000000) :
    next.bookedTime < bookingLimit + 1000000000 := by
  have hlimit : bookingLimit = 31622400000000000 := rfl
  cases hm with
  | pause => exact h
  | resume =>
    have hreach := (s.resumed now).bookedTime_le_reach
    rcases s.bookedTime_resumed_cases now with kept | ⟨cut, hle⟩ | spent <;> omega
  | @extend delta ending running shifted =>
    have hpause := hs.pause_nonneg
    have hbooked := bookedTime_shifted hs shifted
    obtain ⟨-, hbound⟩ := (shiftedEnd_eq_ok_iff hs.start_le_end hs.pause_nonneg).mp shifted
    -- only extensions are checked, and only they need to be
    by_cases extension : 0 < delta.toInt
    · exact hbound extension
    · omega
  -- the end is kept and the pauses grow
  | close =>
    have hpauses := Span.le_saturatingAdd (a := s.accumulatedPause) (s.pauseSoFar_nonneg now)
    simp only [bookedTime, Session.close] at h ⊢
    omega

/-- A session in use can be extended beyond the limit exactly if its booked time has a fraction of a
second, and the calendar goes as far. -/
theorem exists_overbooking_iff (hs : s.WellFormed) (h : s.bookedTime < bookingLimit + 1000000000)
    (running : s.status = .inUse) :
    (∃ delta now next, s.apply (.extend delta) now = .ok next ∧ bookingLimit < next.bookedTime) ↔
      ¬ 1000000000 ∣ s.bookedTime ∧
        bookingLimit + s.bookedTime % 1000000000 ≤ s.reach := by
  have hlimit : bookingLimit = 31622400000000000 := rfl
  have hpause := hs.pause_nonneg
  have hstart := s.startedAt.inRange
  have hend := s.scheduledEndAt.inRange
  have hstarted := Instant.le_iff.mp hs.start_le_end
  constructor
  · rintro ⟨delta, now, next, happly, hover⟩
    obtain ⟨-, ending, shifted, rfl⟩ := apply_extend_eq_ok_iff.mp happly
    have move : Move s now { s with scheduledEndAt := ending } := .extend running shifted
    have hlt := move.bookedTime_lt hs h
    have hreach := bookedTime_le_reach { s with scheduledEndAt := ending }
    have hsame : ({ s with scheduledEndAt := ending } : Session).reach = s.reach := rfl
    have hbooked := bookedTime_shifted hs shifted
    generalize ({ s with scheduledEndAt := ending } : Session).bookedTime = booked at *
    -- the booked time was moved by whole seconds, past the limit and not to the next second
    constructor <;> omega
  · rintro ⟨ragged, room⟩
    -- the whole seconds that are missing to the limit
    have hlast : Instant.last.nanos = 8210266876800 * 1000000000 - 1 := rfl
    obtain ⟨delta, hdelta⟩ : ∃ delta : Word,
        delta.toInt = maxBookedSeconds - s.bookedTime / 1000000000 := by
      refine ⟨.ofInt (maxBookedSeconds - s.bookedTime / 1000000000), Int64.toInt_ofInt_of_le ?_ ?_⟩
      · simp only [bookedTime, reach, maxBookedSeconds] at *
        omega
      · simp only [bookedTime, reach, maxBookedSeconds] at *
        omega
    have hmax : (maxBookedSeconds : Int) = 31622400 := rfl
    have hending : s.startedAt.nanos ≤ s.scheduledEndAt.nanos + delta.toInt * 1000000000 ∧
        s.scheduledEndAt.nanos + delta.toInt * 1000000000 ≤ Instant.last.nanos := by
      simp only [bookedTime, reach] at *
      omega
    have shifted : s.shiftedEnd delta =
        .ok ⟨s.scheduledEndAt.nanos + delta.toInt * 1000000000, by omega⟩ := by
      refine (shiftedEnd_eq_ok_iff hs.start_le_end hs.pause_nonneg).mpr ⟨(Int.max_eq_right hending.1).symm, fun _ => ?_⟩
      simp only [bookedTime] at *
      omega
    refine ⟨delta, .epoch, _, apply_extend_eq_ok_iff.mpr ⟨running, _, shifted, rfl⟩, ?_⟩
    rw [bookedTime_shifted hs shifted]
    omega

/-! ## Whole seconds -/

/-- The event is a reduction that would take the end before the start, and is cut there. -/
def Cuts (s : Session) : Event → Prop
  | .ask (.extend delta) =>
    s.status = .inUse ∧ s.scheduledEndAt.nanos + delta.toInt * 1000000000 < s.startedAt.nanos
  | _ => False

/-- Whenever a reduction is cut along a life, the pauses so far add up to whole seconds. -/
def CutsEvenly (s : Session) : List (Event × Instant) → Prop
  | [] => True
  | (e, now) :: rest =>
    (s.Cuts e → 1000000000 ∣ s.accumulatedPause.nanos) ∧ (s.meet e now).CutsEvenly rest

instance (s : Session) (e : Event) : Decidable (s.Cuts e) :=
  match e with
  | .ask (.extend _) => inferInstanceAs (Decidable (_ ∧ _))
  | .ask .pause | .ask .resume | .ask .cancel | .ask .finalize | .check =>
    inferInstanceAs (Decidable False)

instance decidableCutsEvenly (s : Session) :
    (events : List (Event × Instant)) → Decidable (s.CutsEvenly events)
  | [] => inferInstanceAs (Decidable True)
  | (e, now) :: rest =>
    have := decidableCutsEvenly (s.meet e now) rest
    inferInstanceAs (Decidable (_ ∧ _))

/-- The booked time is within the limit, and will be: it is a whole number of seconds, or the calendar
ends first. -/
structure Within (s : Session) : Prop where
  wellFormed : s.WellFormed
  le_limit : s.bookedTime ≤ bookingLimit
  whole : s.status.isOpen = true → 1000000000 ∣ s.bookedTime ∨ s.reach ≤ bookingLimit

theorem close_status_ne {status : SessionStatus} (isOpen : s.status.isOpen = true)
    (terminal : status.isTerminal = true) : (s.close status now).status ≠ s.status := by
  intro same
  change status = s.status at same
  rw [SessionStatus.isTerminal_eq_true_iff, same, isOpen] at terminal
  cases terminal

/-- A transition other than an extension changes the status. -/
theorem status_ne_of_apply {t : Transition} (h : s.apply t now = .ok next) :
    (∃ delta, t = .extend delta) ∨ next.status ≠ s.status := by
  unfold apply at h
  split at h
  · rename_i running
    split at h
    · cases h
      right
      simp [running]
    · cases h
  · rename_i paused
    cases h
    right
    simp [resumed, paused]
  · exact .inl ⟨_, rfl⟩
  -- what is closed was open
  · split at h
    · rename_i isOpen
      cases h
      exact .inr (close_status_ne isOpen rfl)
    · cases h
  · split at h
    · rename_i isOpen
      cases h
      exact .inr (close_status_ne isOpen rfl)
    · cases h
  · cases h

theorem status_ne_of_expire? (h : s.expire? now = some next) : next.status ≠ s.status := by
  unfold expire? at h
  split at h
  · rename_i expired
    cases h
    exact close_status_ne (SessionStatus.isOpen_iff.mpr (.inl (isExpired_iff.mp expired).1)) rfl
  · cases h

namespace Within

theorem of_book {id : SessionId} {room : RoomId} {customer : Option Word} {duration : Word}
    (h : book id room customer duration now = .ok s) : s.Within := by
  have wellFormed : s.WellFormed := .of_book h
  have hlimit : bookingLimit = maxBookedSeconds * 1000000000 := rfl
  -- the booked time of a new session is its duration, in whole seconds
  obtain ⟨-, hduration, ending, hending, rfl⟩ := book_eq_ok h
  have hbooked : bookedTime ⟨id, room, customer, now, ending, none, .zero, .inUse, 0, none⟩ =
      duration.toInt * 1000000000 := by
    simp only [bookedTime, Span.zero]
    omega
  exact ⟨wellFormed, by omega, fun _ => .inl ⟨duration.toInt, by omega⟩⟩

/-- Everything but an extension keeps the booked time within the limit. -/
theorem move (h : s.Within) (hm : Move s now next) (changed : next.status ≠ s.status) :
    next.Within := by
  have hle := h.le_limit
  have hwhole := h.whole hm.isOpen
  have hless := hm.reach_le
  have wellFormed := hm.wellFormed h.wellFormed
  have hlimit : bookingLimit = 31622400000000000 := rfl
  cases hm with
  | pause => exact ⟨wellFormed, hle, fun _ => hwhole⟩
  | resume =>
    have hreach := (s.resumed now).bookedTime_le_reach
    refine ⟨wellFormed, ?_, fun _ => ?_⟩
    · rcases s.bookedTime_resumed_cases now with kept | ⟨cut, hbefore⟩ | spent <;> omega
    · -- what saturates leaves no room in the calendar
      rcases s.bookedTime_resumed_cases now with kept | ⟨cut, hbefore⟩ | spent
      · rw [kept]
        exact hwhole.imp_right (Int.le_trans hless)
      · exact .inr (Int.le_trans hbefore hle)
      · exact .inr (by omega)
  | extend => exact absurd rfl changed
  | @close status isOpen terminal =>
    have hpauses := Span.le_saturatingAdd (a := s.accumulatedPause) (s.pauseSoFar_nonneg now)
    refine ⟨wellFormed, ?_, fun stillOpen => ?_⟩
    · simp only [bookedTime, Session.close] at hle ⊢
      omega
    · change status.isOpen = true at stillOpen
      rw [SessionStatus.isTerminal_eq_true_iff.mp terminal] at stillOpen
      cases stillOpen

/-- An extension, or a reduction that is not cut unevenly, keeps the booked time within the limit. -/
theorem shift (h : s.Within) (running : s.status = .inUse) (shifted : s.shiftedEnd delta = .ok ending)
    (even : s.Cuts (.ask (.extend delta)) → 1000000000 ∣ s.accumulatedPause.nanos) :
    ({ s with scheduledEndAt := ending } : Session).Within := by
  have hm : Move s .epoch { s with scheduledEndAt := ending } := .extend running shifted
  have hle := h.le_limit
  have hpause := h.wellFormed.pause_nonneg
  have hlimit : bookingLimit = 31622400000000000 := rfl
  have hbooked := bookedTime_shifted h.wellFormed shifted
  have hreach := bookedTime_le_reach { s with scheduledEndAt := ending }
  have hlt := hm.bookedTime_lt h.wellFormed (by omega)
  have hsame : ({ s with scheduledEndAt := ending } : Session).reach = s.reach := rfl
  -- the booked time is in whole seconds, or the calendar leaves no room for an extension
  rcases h.whole hm.isOpen with whole | spent
  · have hdvd : 1000000000 ∣ ({ s with scheduledEndAt := ending } : Session).bookedTime := by
      -- a cut leaves the pauses as the booked time, and these are in whole seconds
      by_cases cut : s.bookedTime + delta.toInt * 1000000000 < -s.accumulatedPause.nanos
      · have hdvd := even ⟨running, by unfold bookedTime at cut; omega⟩
        omega
      · omega
    -- there are no whole seconds between the limit and the second after it
    exact ⟨hm.wellFormed h.wellFormed, by omega, fun _ => .inl hdvd⟩
  · exact ⟨hm.wellFormed h.wellFormed, by omega, fun _ => .inr (by omega)⟩

theorem meet (h : s.Within) {e : Event} (even : s.Cuts e → 1000000000 ∣ s.accumulatedPause.nanos)
    (now : Instant) : (s.meet e now).Within := by
  cases e with
  | check =>
    cases hexpire : s.expire? now with
    | none => simpa only [Session.meet, hexpire, Option.getD_none] using h
    | some next =>
      simpa only [Session.meet, hexpire, Option.getD_some] using
        h.move (move_of_expire? hexpire) (status_ne_of_expire? hexpire)
  | ask t =>
    cases happly : s.apply t now with
    | error e => simpa only [Session.meet, happly] using h
    | ok next =>
      simp only [Session.meet, happly]
      -- extensions alone keep the status, and only they may pass the limit
      rcases status_ne_of_apply happly with ⟨delta, rfl⟩ | changed
      · obtain ⟨running, ending, shifted, rfl⟩ := apply_extend_eq_ok_iff.mp happly
        exact h.shift running shifted even
      · exact h.move (move_of_apply happly) changed

/-- Along a life that cuts evenly, the booked time is within the limit. -/
theorem live {events : List (Event × Instant)} (h : s.Within) (even : s.CutsEvenly events) :
    (s.live events).Within := by
  induction events generalizing s with
  | nil => exact h
  | cons e rest ih =>
    obtain ⟨e, now⟩ := e
    exact ih (h.meet even.1 now) even.2

end Within

/-- Along every life, the booked time is less than a second over the limit. -/
theorem bookedTime_live_lt (hs : s.WellFormed) (h : s.bookedTime < bookingLimit + 1000000000)
    (events : List (Event × Instant)) :
    (s.live events).WellFormed ∧ (s.live events).bookedTime < bookingLimit + 1000000000 := by
  induction events generalizing s with
  | nil => exact ⟨hs, h⟩
  | cons e rest ih =>
    obtain ⟨e, now⟩ := e
    -- an event that changes nothing leaves the bound as it is
    rcases s.meet_cases e now with same | hm
    · rw [live, same]
      exact ih hs h
    · exact ih (hm.wellFormed hs) (hm.bookedTime_lt hs h)

/-- **The booking limit, to the second.** Along every life of a booked session, whatever the clock does,
the booked time is less than a second over the limit. It is within the limit as long as every reduction
that is cut at the start finds pauses of whole seconds. An extension beyond the limit goes through exactly
if the booked time has a fraction of a second, and the calendar goes as far. -/
theorem booked_to_the_second {id : SessionId} {room : RoomId} {customer : Option Word}
    {duration : Word} {start : Instant} {booked : Session}
    (h : book id room customer duration start = .ok booked) (events : List (Event × Instant)) :
    let s := booked.live events
    s.bookedTime < bookingLimit + 1000000000 ∧
    (booked.CutsEvenly events → s.bookedTime ≤ bookingLimit) ∧
    (s.status = .inUse →
      ((∃ delta now next, s.apply (.extend delta) now = .ok next ∧
          bookingLimit < next.bookedTime) ↔
        ¬ 1000000000 ∣ s.bookedTime ∧
          bookingLimit + s.bookedTime % 1000000000 ≤ s.reach)) := by
  intro s
  have within := Within.of_book h
  have hle := within.le_limit
  obtain ⟨wellFormed, hlt⟩ := bookedTime_live_lt within.wellFormed (by omega) events
  exact ⟨hlt, fun even => (within.live even).le_limit, exists_overbooking_iff wellFormed hlt⟩

/-- A booking for a minute is paused for the given time and resumed; then it is reduced by a second more
than a minute, which is cut at the start, and extended by a second more than the limit. -/
def cutLife (pause : Instant) : List (Event × Instant) :=
  [(.ask .pause, .epoch), (.ask .resume, pause), (.ask (.extend (-61)), pause),
    (.ask (.extend 31622401), pause)]

/-- After a pause of a second, the session is booked to the limit. -/
theorem booked_to_the_second_even :
    ∃ booked, book ⟨1⟩ 5 none 60 .epoch = .ok booked ∧
      booked.CutsEvenly (cutLife ⟨1000000000, by decide⟩) ∧
      (booked.live (cutLife ⟨1000000000, by decide⟩)).bookedTime ≤ bookingLimit := by
  let booked : Session :=
    ⟨⟨1⟩, 5, none, .epoch, ⟨60000000000, by decide⟩, none, .zero, .inUse, 0, none⟩
  have h : book ⟨1⟩ 5 none 60 .epoch = .ok booked := rfl
  have even : booked.CutsEvenly (cutLife ⟨1000000000, by decide⟩) := by decide
  exact ⟨booked, h, even, (booked_to_the_second h _).2.1 even⟩

/-- **A session over the limit.** After a pause of half a second, the same life leaves a session in use
that is booked for half a second more than the limit. -/
theorem not_always_within_limit :
    ∃ booked, book ⟨1⟩ 5 none 60 .epoch = .ok booked ∧
      (booked.live (cutLife ⟨500000000, by decide⟩)).status = .inUse ∧
      (booked.live (cutLife ⟨500000000, by decide⟩)).bookedTime = bookingLimit + 500000000 := by
  refine ⟨⟨⟨1⟩, 5, none, .epoch, ⟨60000000000, by decide⟩, none, .zero, .inUse, 0, none⟩, rfl, ?_⟩
  decide

end Session

end Occupancy
