import Occupancy.Proofs.Time
import Occupancy.Proofs.Timestamp
import Occupancy.View

/-!
# Texts of views and their dates

A view is sent as a text, and the text names the instant at which the view was generated. Main statement:
`Shows.unique`. A text names one instant at most, so that texts can be compared by their dates without being
read back: `InOrder`.
-/

namespace Occupancy

/-! ## The end of a text -/

namespace Json

/-- The last member of an object stands at the end of its text. -/
theorem memberChars_concat (members : List (String × Value)) (key : String) (v : Value) :
    ∃ before, memberChars (members ++ [(key, v)]) = before ++ v.chars := by
  induction members with
  | nil => exact ⟨quote key ++ [':'], by simp [memberChars]⟩
  | cons first rest ih =>
    obtain ⟨before, h⟩ := ih
    -- members are set apart by commas, so the next one decides how the first is written
    refine ⟨quote first.1 ++ ':' :: first.2.chars ++ ',' :: before, ?_⟩
    cases rest with
    | nil =>
      simp only [List.nil_append, List.cons_append] at h ⊢
      simp [memberChars, ← h]
    | cons second rest =>
      simp only [List.cons_append] at h ⊢
      simp [memberChars, ← h]

/-- A text without quotes, backslashes and control characters stands for itself. -/
theorem escapeChar_of_isPlain {c : Char} (h : Timestamp.IsPlain c) : escapeChar c = [c] := by
  rcases h with h | h
  · -- digits come after all characters that are escaped, but for the backslash
    have hlower : 48 ≤ c.toNat := by
      simp only [Char.isDigit, Bool.and_eq_true, decide_eq_true_eq] at h
      exact UInt32.le_iff_toNat_le.mp h.1
    have hne : ∀ c' : Char, c'.isDigit = false → c ≠ c' := by
      rintro c' hc' rfl
      rw [h] at hc'
      cases hc'
    simp [escapeChar, hne '"' rfl, hne '\\' rfl, hne '\x08' rfl, hne '\x0c' rfl, hne '\n' rfl,
      hne '\r' rfl, hne '\t' rfl, show ¬ c.toNat < 32 by omega]
  · simp only [List.mem_cons, List.not_mem_nil, or_false] at h
    rcases h with rfl | rfl | rfl | rfl | rfl | rfl <;> rfl

/-- The date of a view stands in quotes. -/
theorem quote_timestamp (i : Instant) :
    quote (i : Timestamp).text = '"' :: (i : Timestamp).chars ++ ['"'] := by
  have hchars : ((i : Timestamp).text.toList).flatMap escapeChar = (i : Timestamp).chars := by
    rw [Timestamp.text, String.toList_ofList, List.flatMap_congr fun c hc =>
      escapeChar_of_isPlain (Timestamp.isPlain_of_mem_chars hc), List.flatMap_singleton']
  rw [quote, hchars]

end Json

/-- The date of a view stands at the end of its text. -/
theorem RoomView.payload_eq {v : RoomView} {i : Instant} (h : v.generatedAt = (i : Timestamp)) :
    ∃ before, v.payload.toList = before ++ '"' :: (i : Timestamp).chars ++ ['"', '}'] := by
  obtain ⟨before, hmembers⟩ := Json.memberChars_concat
    [("roomId", .word v.room), ("branchId", .word v.branch), ("name", .text v.name),
     ("state", .text v.state.text), ("device", .option Device.toJson v.device),
     ("session", .option SessionView.toJson v.session),
     ("elapsedBillableSeconds", .option .word v.elapsedBillableSeconds),
     ("remainingSeconds", .option .word v.remainingSeconds)]
    "generatedAt" v.generatedAt.toJson
  refine ⟨'{' :: before, ?_⟩
  -- the date is the last member, so it stands before the closing brace
  have hchars : v.toJson.chars = '{' :: (before ++ v.generatedAt.toJson.chars) ++ ['}'] := by
    rw [← hmembers]
    simp [RoomView.toJson, Json.Value.chars]
  rw [RoomView.payload, Json.Value.render, String.toList_ofList, hchars, h, Timestamp.toJson,
    Json.Value.chars, Json.quote_timestamp]
  simp

/-! ## Dates of texts -/

/-- The text is that of a view that was generated at an instant. -/
def Shows (text : String) (i : Instant) : Prop :=
  ∃ v : RoomView, v.payload = text ∧ v.generatedAt = (i : Timestamp)

theorem shows_payload {v : RoomView} {i : Instant} (h : v.generatedAt = (i : Timestamp)) :
    Shows v.payload i :=
  ⟨v, rfl, h⟩

/-- **Texts are dated.** A text names one instant at most. -/
theorem Shows.unique {text : String} {i j : Instant} (hi : Shows text i) (hj : Shows text j) : i = j := by
  obtain ⟨v, rfl, hv⟩ := hi
  obtain ⟨v', hsame, hv'⟩ := hj
  obtain ⟨before, h⟩ := RoomView.payload_eq hv
  obtain ⟨before', h'⟩ := RoomView.payload_eq hv'
  have hmark : ∀ i : Instant, '"' ∉ (i : Timestamp).chars.reverse := by
    intro i hmem
    rcases Timestamp.isPlain_of_mem_chars (List.mem_reverse.mp hmem) with h | h <;>
      revert h <;> decide
  -- read backwards, the date ends at the first quote
  have htail : before ++ '"' :: (i : Timestamp).chars = before' ++ '"' :: (j : Timestamp).chars :=
    List.append_cancel_right (h.symm.trans (hsame ▸ h'))
  have hback := congrArg List.reverse htail
  simp only [List.reverse_append, List.reverse_cons, List.append_assoc, List.singleton_append] at hback
  exact Timestamp.chars_injective
    (List.reverse_injective (append_mark_inj (hmark i) (hmark j) hback).1)

/-- The text is that of a view which is not younger than an instant. -/
def Until (i : Instant) (text : String) : Prop :=
  ∃ j, Shows text j ∧ j ≤ i

/-- The text is that of a view which is not older than an instant. -/
def Since (i : Instant) (text : String) : Prop :=
  ∃ j, Shows text j ∧ i ≤ j

/-- The first of two texts is that of a view which is not younger than the view of the second. -/
def NoLater (text text' : String) : Prop :=
  ∃ i j, Shows text i ∧ Shows text' j ∧ i ≤ j

/-- The texts are those of views, of which none is older than one before it. -/
structure InOrder (texts : List String) : Prop where
  dated : ∀ text ∈ texts, ∃ i, Shows text i
  sorted : texts.Pairwise NoLater

section

variable {text text' : String} {texts texts' : List String} {i j : Instant}

/-- The order of two payloads is the order of the instants they show. -/
theorem noLater_iff (h : Shows text i) (h' : Shows text' j) : NoLater text text' ↔ i ≤ j := by
  constructor
  · rintro ⟨a, b, ha, hb, hle⟩
    rw [h.unique ha, h'.unique hb]
    exact hle
  · exact fun hle => ⟨i, j, h, h', hle⟩

theorem Until.mono (h : Until i text) (hle : i ≤ j) : Until j text := by
  obtain ⟨a, ha, hai⟩ := h
  exact ⟨a, ha, Instant.le_trans hai hle⟩

namespace InOrder

theorem nil : InOrder [] :=
  ⟨nofun, .nil⟩

theorem sublist (h : InOrder texts) (hsub : texts'.Sublist texts) : InOrder texts' :=
  ⟨fun text htext => h.dated text (hsub.subset htext), h.sorted.sublist hsub⟩

/-- A text that is not older than any before it may follow. -/
theorem concat (h : InOrder texts) (huntil : ∀ text ∈ texts, Until i text) (hshows : Shows text i) :
    InOrder (texts ++ [text]) := by
  refine ⟨fun text' htext' => ?_, List.pairwise_append.mpr ⟨h.sorted, List.pairwise_singleton _ _, ?_⟩⟩
  · rcases List.mem_append.mp htext' with htext' | htext'
    · exact h.dated text' htext'
    · exact ⟨i, List.mem_singleton.mp htext' ▸ hshows⟩
  · intro a ha b hb
    obtain ⟨j, hj, hle⟩ := huntil a ha
    exact ⟨j, i, hj, List.mem_singleton.mp hb ▸ hshows, hle⟩

/-- Texts in order stay so behind a first one exactly if none of them is older. -/
theorem append_iff {first : Option String} (h : InOrder texts) (hdated : ∀ p ∈ first, ∃ i, Shows p i) :
    InOrder (first.toList ++ texts) ↔ ∀ p ∈ first, ∀ q ∈ texts, NoLater p q := by
  cases first with
  | none => exact iff_of_true h nofun
  | some p =>
    obtain ⟨i, hi⟩ := hdated p rfl
    constructor
    -- the new payload is at the head, so it is compared with every other
    · rintro hall p' ⟨⟩ q hq
      exact List.rel_of_pairwise_cons hall.sorted hq
    · refine fun hle => ⟨fun q hq => ?_, List.pairwise_cons.mpr ⟨hle p rfl, h.sorted⟩⟩
      rcases List.mem_cons.mp hq with rfl | hq
      · exact ⟨i, hi⟩
      · exact h.dated q hq

end InOrder

end

end Occupancy
