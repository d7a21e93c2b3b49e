import Occupancy.Proofs.Reading.Topics

/-!
# What is read as a topic

A topic may be spelled in more ways than it is written: each of its numbers with a sign, and with zeros in front.
`Numeral` and `Spells` say which texts are meant, without a word on reading. Main statements:
`readId?_eq_some_iff` for numbers, `spells_of_read?` and `read?_of_spells` for topics, and `reads_exactly`.
-/

namespace Occupancy

/-! ## Numerals -/

namespace Decimal

/-- A run of digits: there is at least one, and nothing else. -/
structure IsRun (run : List Char) : Prop where
  nonempty : run ≠ []
  digits : ∀ c ∈ run, c.isDigit = true

/-- A text is a numeral of an integer: a run of digits with at most one sign in front. -/
inductive Numeral : List Char → Int → Prop where
  | unsigned {run : List Char} (h : IsRun run) : Numeral run (Nat.ofDigitChars 10 run 0)
  | plus {run : List Char} (h : IsRun run) : Numeral ('+' :: run) (Nat.ofDigitChars 10 run 0)
  | minus {run : List Char} (h : IsRun run) : Numeral ('-' :: run) (-(Nat.ofDigitChars 10 run 0 : Int))

variable {cs run : List Char} {i : Int} {n : Nat} {w : Word}

/-- A natural number is read from a run of digits, and from nothing else. -/
theorem natural?_eq_some_iff : natural? cs = some n ↔ IsRun cs ∧ n = Nat.ofDigitChars 10 cs 0 := by
  unfold natural?
  constructor
  · intro h
    split at h
    · rename_i hrun
      exact ⟨⟨hrun.1, List.all_eq_true.mp hrun.2⟩, (Option.some.inj h).symm⟩
    · cases h
  · rintro ⟨hrun, rfl⟩
    exact if_pos ⟨hrun.nonempty, List.all_eq_true.mpr hrun.digits⟩

theorem IsRun.ne_cons {c : Char} (h : IsRun run) (hc : c.isDigit = false) (rest : List Char) :
    run ≠ c :: rest := by
  rintro rfl
  rw [h.digits c List.mem_cons_self] at hc
  cases hc

theorem integer?_minus (run : List Char) :
    integer? ('-' :: run) = (natural? run).map fun n : Nat => -(n : Int) := by
  rw [integer?]
  cases natural? run <;> rfl

theorem integer?_plus (run : List Char) :
    integer? ('+' :: run) = (natural? run).map fun n : Nat => (n : Int) := by
  rw [integer?]
  cases natural? run <;> rfl

theorem integer?_unsigned (hminus : ∀ run, cs ≠ '-' :: run) (hplus : ∀ run, cs ≠ '+' :: run) :
    integer? cs = (natural? cs).map fun n : Nat => (n : Int) := by
  rw [integer?.eq_3 cs hminus hplus]
  cases natural? cs <;> rfl

/-- What is read as an integer is a numeral of it. -/
theorem numeral_of_integer? (h : integer? cs = some i) : Numeral cs i := by
  -- the sign, if there is one, decides the rule
  by_cases hminus : ∃ run, cs = '-' :: run
  · obtain ⟨run, rfl⟩ := hminus
    rw [integer?_minus] at h
    obtain ⟨n, hn, rfl⟩ := Option.map_eq_some_iff.mp h
    obtain ⟨hrun, rfl⟩ := natural?_eq_some_iff.mp hn
    exact .minus hrun
  · by_cases hplus : ∃ run, cs = '+' :: run
    · obtain ⟨run, rfl⟩ := hplus
      rw [integer?_plus] at h
      obtain ⟨n, hn, rfl⟩ := Option.map_eq_some_iff.mp h
      obtain ⟨hrun, rfl⟩ := natural?_eq_some_iff.mp hn
      exact .plus hrun
    · rw [integer?_unsigned (fun run heq => hminus ⟨run, heq⟩) fun run heq => hplus ⟨run, heq⟩] at h
      obtain ⟨n, hn, rfl⟩ := Option.map_eq_some_iff.mp h
      obtain ⟨hrun, rfl⟩ := natural?_eq_some_iff.mp hn
      exact .unsigned hrun

/-- A numeral is read as its integer. -/
theorem Numeral.integer?_eq (h : Numeral cs i) : integer? cs = some i := by
  cases h with
  | unsigned hrun =>
    rw [integer?_unsigned (hrun.ne_cons (by decide)) (hrun.ne_cons (by decide)),
      natural?_eq_some_iff.mpr ⟨hrun, rfl⟩, Option.map_some]
  | plus hrun => rw [integer?_plus, natural?_eq_some_iff.mpr ⟨hrun, rfl⟩, Option.map_some]
  | minus hrun => rw [integer?_minus, natural?_eq_some_iff.mpr ⟨hrun, rfl⟩, Option.map_some]

/-- A number is a word exactly if a word has it as its value. -/
theorem word?_eq_some_iff : word? i = some w ↔ w.toInt = i := by
  constructor
  · intro h
    unfold word? at h
    split at h
    · rename_i hfits
      rw [← Option.some.inj h]
      exact Int64.toInt_ofInt_of_le hfits.1 hfits.2
    · cases h
  · rintro rfl
    exact word?_toInt w

/-- No numeral has a colon. -/
theorem Numeral.colon_not_mem (h : Numeral cs i) : ':' ∉ cs := by
  have apart : ∀ {run}, IsRun run → ':' ∉ run := fun hrun hmem =>
    absurd (hrun.digits ':' hmem) (by decide)
  cases h with
  | unsigned hrun => exact apart hrun
  | plus hrun => exact List.not_mem_cons_of_ne_of_not_mem (by decide) (apart hrun)
  | minus hrun => exact List.not_mem_cons_of_ne_of_not_mem (by decide) (apart hrun)

end Decimal

/-! ## Topics -/

namespace Topic

open Decimal (Numeral)

/-- A text spells a topic: the word for all rooms, or a kind and its numbers, each after a colon. -/
inductive Spells : List Char → Topic → Prop where
  | room {cs : List Char} {id : RoomId} (h : Numeral cs id.toInt) :
      Spells ("room:".toList ++ cs) (.room id)
  | branch {cs : List Char} {id : BranchId} (h : Numeral cs id.toInt) :
      Spells ("branch:".toList ++ cs) (.branch id)
  | allRooms : Spells "rooms".toList .allRooms
  | deviceOwner {cs cs' : List Char} {device : DeviceId} {user : UserId}
      (h : Numeral cs device.toInt) (h' : Numeral cs' user.toInt) :
      Spells ("device-owner:".toList ++ (cs ++ ':' :: cs')) (.deviceOwner device user)

variable {cs kind rest : List Char} {w : Word}

/-- An identifier is read from a numeral of its value, and from nothing else. -/
theorem readId?_eq_some_iff : readId? cs = some w ↔ Numeral cs w.toInt := by
  rw [readId?, Option.bind_eq_some_iff]
  constructor
  · rintro ⟨i, hi, hw⟩
    rw [Decimal.word?_eq_some_iff.mp hw]
    exact Decimal.numeral_of_integer? hi
  · intro h
    exact ⟨w.toInt, h.integer?_eq, Decimal.word?_toInt w⟩

/-- A text is taken apart at its first colon. -/
theorem splitColon_eq_some_iff :
    splitColon cs = some (kind, rest) ↔ ':' ∉ kind ∧ cs = kind ++ ':' :: rest := by
  constructor
  · intro h
    unfold splitColon at h
    have happend : cs.takeWhile (· ≠ ':') ++ cs.dropWhile (· ≠ ':') = cs :=
      List.takeWhile_append_dropWhile
    split at h
    · cases h
    · rename_i c rest' hdrop
      cases h
      rw [hdrop] at happend
      -- what stops the first part is a colon
      obtain rfl : c = ':' := by
        have hstop := List.head?_dropWhile_not (· ≠ ':') cs
        rw [hdrop] at hstop
        simpa using hstop
      refine ⟨fun hmem => ?_, happend.symm⟩
      have hpass := List.all_eq_true.mp List.all_takeWhile _ hmem
      simp at hpass
  · rintro ⟨hfree, rfl⟩
    exact splitColon_append hfree

/-- What is read as a topic spells it. -/
theorem spells_of_read? {s : String} {t : Topic} (h : read? s = some t) : Spells s.toList t := by
  unfold read? at h
  split at h
  -- the fixed name, or a kind and what follows its colon
  · rename_i hs
    cases h
    rw [hs]
    exact .allRooms
  · obtain ⟨⟨kind, rest⟩, hsplit, h⟩ := Option.bind_eq_some_iff.mp h
    rw [(splitColon_eq_some_iff.mp hsplit).2]
    dsimp only at h
    split at h
    · rename_i hkind
      obtain ⟨id, hid, rfl⟩ := Option.map_eq_some_iff.mp h
      rw [hkind]
      exact .room (readId?_eq_some_iff.mp hid)
    · split at h
      · rename_i hkind
        obtain ⟨id, hid, rfl⟩ := Option.map_eq_some_iff.mp h
        rw [hkind]
        exact .branch (readId?_eq_some_iff.mp hid)
      · split at h
        · rename_i hkind
          obtain ⟨⟨cs, cs'⟩, hsplit', h⟩ := Option.bind_eq_some_iff.mp h
          obtain ⟨device, hdevice, h⟩ := Option.bind_eq_some_iff.mp h
          obtain ⟨user, huser, h⟩ := Option.bind_eq_some_iff.mp h
          -- the owner follows the device's own colon
          cases h
          rw [hkind, (splitColon_eq_some_iff.mp hsplit').2]
          exact .deviceOwner (readId?_eq_some_iff.mp hdevice) (readId?_eq_some_iff.mp huser)
        · cases h

/-- What spells a topic is read as it. -/
theorem read?_of_spells {s : String} {t : Topic} (h : Spells s.toList t) : read? s = some t := by
  generalize hs : s.toList = cs at h
  cases h with
  | allRooms =>
    rw [read?, if_pos (String.toList_injective hs)]
  | @room cs id h =>
    have hroom : s.toList = ['r', 'o', 'o', 'm'] ++ ':' :: cs := hs
    -- none of the kinds spells the name of all rooms
    rw [read?, if_neg (ne_rooms hroom), hroom, splitColon_append (by decide)]
    simp [readId?_eq_some_iff.mpr h]
  | @branch cs id h =>
    have hbranch : s.toList = ['b', 'r', 'a', 'n', 'c', 'h'] ++ ':' :: cs := hs
    rw [read?, if_neg (ne_rooms hbranch), hbranch, splitColon_append (by decide)]
    simp [readId?_eq_some_iff.mpr h]
  | @deviceOwner cs cs' device user h h' =>
    have hdevice : s.toList =
        ['d', 'e', 'v', 'i', 'c', 'e', '-', 'o', 'w', 'n', 'e', 'r'] ++ ':' :: (cs ++ ':' :: cs') := hs
    rw [read?, if_neg (ne_rooms hdevice), hdevice, splitColon_append (by decide)]
    -- the first numeral has no colon, so the second colon is the one between them
    simp [splitColon_append h.colon_not_mem, readId?_eq_some_iff.mpr h, readId?_eq_some_iff.mpr h']

/-- **Topics are read exactly.** The written form of a topic is read as the topic, and different topics are
written differently; and a text is read as a topic if and only if it spells it. -/
theorem reads_exactly :
    (∀ t, read? t.text = some t) ∧ Function.Injective text ∧
    ∀ (s : String) (t : Topic), read? s = some t ↔ Spells s.toList t :=
  ⟨read?_text, text_injective, fun _ _ => ⟨spells_of_read?, read?_of_spells⟩⟩

end Topic

end Occupancy
