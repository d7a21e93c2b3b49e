import Mathlib
import Occupancy.Http.Routes
import Occupancy.Proofs.Reading.Topics
import Occupancy.Viewer.Arguments

/-!
# The viewer asks for what it was told to watch

The address that a viewer connects to has a query of numbers, each after its key. Such a query is taken apart
into the same keys and numbers (`read?_written`), and the query of an address is what a server finds in it
(`query_of_read?`). Main statement: `endpoint_agrees`.
-/

namespace Occupancy

/-! ## Characters of numerals -/

namespace Decimal

/-- A numeral has digits in it, and maybe a minus sign. -/
theorem mem_chars {c : Char} {i : Int} (h : c ∈ chars i) : c = '-' ∨ isDigit c = true := by
  unfold chars at h
  split at h
  · rcases List.mem_cons.mp h with rfl | h
    · exact .inl rfl
    · exact .inr (isDigit_of_mem_digits h)
  · exact .inr (isDigit_of_mem_digits h)

theorem not_mem_chars {c : Char} (hminus : c ≠ '-') (hdigit : isDigit c = false) (i : Int) :
    c ∉ chars i := by
  intro hmem
  rcases mem_chars hmem with h | h
  · exact hminus h
  · rw [hdigit] at h
    cases h

end Decimal

namespace Http

/-! ## Taking queries apart -/

namespace Target

variable {mark : Char} {cs rest : List Char}

theorem pieces_of_not_mem (h : mark ∉ cs) : pieces mark cs = [cs] := by
  induction cs with
  | nil => rfl
  | cons c cs ih =>
    rw [List.mem_cons, not_or] at h
    rw [pieces, if_neg (Ne.symm h.1), ih h.2]

/-- A text is cut at its first mark. -/
theorem pieces_append (h : mark ∉ cs) : pieces mark (cs ++ mark :: rest) = cs :: pieces mark rest := by
  induction cs with
  | nil => rw [List.nil_append, pieces, if_pos rfl]
  | cons c cs ih =>
    rw [List.mem_cons, not_or] at h
    rw [List.cons_append, pieces, if_neg (Ne.symm h.1), ih h.2]

/-- A text without escapes stands for itself. -/
theorem unescape_of_not_mem (h : '%' ∉ cs) : unescape cs = cs := by
  induction cs with
  | nil => rw [unescape]
  | cons c cs ih =>
    rw [List.mem_cons, not_or] at h
    rw [unescape.eq_2 c cs fun _ _ _ heq _ => h.1 heq.symm, ih h.2]

end Target

namespace ViewerQuery

/-- A field of a query as it is written: the key and the number. -/
def field (f : String × Word) : List Char :=
  f.1.toList ++ '=' :: Decimal.chars f.2.toInt

/-- Fields as they are written in a query. -/
def written : List (String × Word) → List Char
  | [] => []
  | [f] => field f
  | f :: g :: rest => field f ++ '&' :: written (g :: rest)

/-- A key that needs no escapes. -/
def Plain (key : String) : Prop :=
  ∀ c ∈ key.toList, c ≠ '=' ∧ c ≠ '&' ∧ c ≠ '+' ∧ c ≠ '%'

instance (key : String) : Decidable (Plain key) :=
  List.decidableBAll (fun c => c ≠ '=' ∧ c ≠ '&' ∧ c ≠ '+' ∧ c ≠ '%') key.toList

def keys (query : List Char) : List String :=
  ((Target.pieces '&' query).filter (· ≠ [])).map fun piece => (keyValue piece).1

inductive Selector where
  | room
  | branch
  | device
deriving DecidableEq

/-- What a key selects by. A device is given together with its owner. -/
def Selector.ofKey? (key : String) : Option Selector :=
  if key = "roomId" then some .room
  else if key = "branchId" then some .branch
  else if key = "deviceId" ∨ key = "userId" then some .device
  else none

theorem unescape_of_not_mem {cs : List Char} (hplus : '+' ∉ cs) (hpercent : '%' ∉ cs) :
    unescape cs = cs := by
  have hmap : (cs.map fun c => if c = '+' then ' ' else c) = cs := by
    refine (List.map_congr_left fun c hc => ?_).trans (List.map_id cs)
    exact if_neg fun heq : c = '+' => hplus (heq ▸ hc)
  rw [unescape, hmap, Target.unescape_of_not_mem hpercent]

variable {f : String × Word}

/-- A field is taken apart into its key and its numeral. -/
theorem keyValue_field (plain : Plain f.1) :
    keyValue (field f) = (f.1, Decimal.chars f.2.toInt) := by
  -- a plain key has no equality sign, so the first one ends it
  have hkey : (field f).takeWhile (· ≠ '=') = f.1.toList := by
    rw [field, List.takeWhile_append_of_pos fun c hc => decide_eq_true (plain c hc).1]
    simp
  have hvalue : (field f).drop (f.1.toList.length + 1) = Decimal.chars f.2.toInt := by
    rw [field, ← List.drop_drop, List.drop_left]
    rfl
  -- neither a plain key nor a numeral has anything to unescape
  rw [keyValue, hkey, hvalue,
    unescape_of_not_mem (fun h => (plain _ h).2.2.1 rfl) fun h => (plain _ h).2.2.2 rfl,
    unescape_of_not_mem (Decimal.not_mem_chars (by decide) (by decide) _)
      (Decimal.not_mem_chars (by decide) (by decide) _),
    String.ofList_toList]

theorem field_ne_nil (f : String × Word) : field f ≠ [] :=
  List.append_ne_nil_of_right_ne_nil _ (List.cons_ne_nil _ _)

theorem ampersand_not_mem_field (plain : Plain f.1) : '&' ∉ field f := by
  intro h
  rcases List.mem_append.mp h with h | h
  · exact (plain _ h).2.1 rfl
  · rcases List.mem_cons.mp h with h | h
    · cases h
    · exact Decimal.not_mem_chars (by decide) (by decide) _ h

/-- What is written from fields is cut into the fields. -/
theorem pieces_written {fs : List (String × Word)} (plain : ∀ f ∈ fs, Plain f.1) :
    (Target.pieces '&' (written fs)).filter (· ≠ []) = fs.map field := by
  induction fs with
  | nil => rfl
  | cons f rest ih =>
    -- the next field begins after the first ampersand
    have hf := ampersand_not_mem_field (plain f List.mem_cons_self)
    cases rest with
    | nil => simp [written, Target.pieces_of_not_mem hf, field_ne_nil]
    | cons g rest =>
      have hrest := ih fun g hg => plain g (List.mem_cons_of_mem _ hg)
      rw [written, Target.pieces_append hf, List.filter_cons_of_pos (by simp [field_ne_nil]), hrest]
      rfl

theorem keys_written {fs : List (String × Word)} (plain : ∀ f ∈ fs, Plain f.1) :
    keys (written fs) = fs.map (·.1) := by
  rw [keys, pieces_written plain, List.map_map]
  refine List.map_congr_left fun f hf => ?_
  rw [Function.comp_apply, keyValue_field (plain f hf)]

/-- Reading what is written from fields takes the fields one after the other. -/
theorem read?_written {fs : List (String × Word)} (plain : ∀ f ∈ fs, Plain f.1) :
    read? (written fs) = fs.foldlM (fun q f => q.add? f.1 (Decimal.chars f.2.toInt)) {} := by
  rw [read?, pieces_written plain, List.foldlM_map]
  generalize ({} : ViewerQuery) = q
  induction fs generalizing q with
  | nil => rfl
  | cons f rest ih =>
    rw [List.foldlM_cons, List.foldlM_cons, keyValue_field (plain f List.mem_cons_self)]
    exact congrArg _ (funext fun q => ih (fun g hg => plain g (List.mem_cons_of_mem _ hg)) q)

end ViewerQuery

/-! ## The query of an address -/

namespace Target

/-- What stands behind the first question mark of a text, up to a fragment. -/
def queryIn (cs : List Char) : List Char :=
  ((cs.takeWhile (· ≠ '#')).dropWhile (· ≠ '?')).drop 1

def queryOf (address : String) : List Char :=
  queryIn address.toList

/-- A text in which no query and no fragment begins. -/
def Bare (cs : List Char) : Prop :=
  ∀ c ∈ cs, c ≠ '?' ∧ c ≠ '#'

instance (cs : List Char) : Decidable (Bare cs) :=
  List.decidableBAll (fun c => c ≠ '?' ∧ c ≠ '#') cs

variable {cs rest : List Char} {t : Target}

theorem queryIn_append (bare : Bare cs) (rest : List Char) : queryIn (cs ++ rest) = queryIn rest := by
  rw [queryIn, List.takeWhile_append_of_pos fun c hc => decide_eq_true (bare c hc).2,
    List.dropWhile_append_of_pos fun c hc => decide_eq_true (bare c hc).1, queryIn]

theorem queryIn_of_bare (bare : Bare cs) : queryIn cs = [] := by
  have h := queryIn_append bare []
  rwa [List.append_nil] at h

/-- After the question mark comes the query. -/
theorem queryIn_question (h : '#' ∉ rest) : queryIn ('?' :: rest) = rest := by
  -- nothing of the query is cut off as a fragment
  have hvisible : ('?' :: rest).takeWhile (· ≠ '#') = '?' :: rest := by
    refine List.takeWhile_eq_self_iff.mpr fun c hc => decide_eq_true ?_
    rintro rfl
    rcases List.mem_cons.mp hc with heq | hc
    · cases heq
    · exact h hc
  rw [queryIn, hvisible]
  rfl

theorem queryOf_eq {base address : String} {q : List Char} (bare : Bare base.toList)
    (visible : '#' ∉ q) (h : address.toList = base.toList ++ '?' :: q) :
    queryOf address = q := by
  rw [queryOf, h, queryIn_append bare, queryIn_question visible]

theorem drop_length_takeWhile (p : Char → Bool) (l : List Char) :
    l.drop (l.takeWhile p).length = l.dropWhile p :=
  calc l.drop (l.takeWhile p).length
    _ = (l.takeWhile p ++ l.dropWhile p).drop (l.takeWhile p).length := by
      rw [List.takeWhile_append_dropWhile]
    _ = l.dropWhile p := List.drop_left

/-- A server finds the query behind the path. -/
theorem query_of_ofPath? (h : ofPath? cs = some t) : t.query.getD [] = queryIn cs := by
  unfold ofPath? at h
  simp only [drop_length_takeWhile] at h
  -- path and query are what stands before the fragment
  rw [queryIn]
  split at h
  · split at h
    · rename_i hdrop
      cases h
      rw [hdrop]
      rfl
    · rename_i hdrop
      split at h
      · cases h
        rw [hdrop]
        rfl
      · cases h
  · cases h

theorem bare_of_forall {p : Char → Bool} (question : p '?' = false) (hash : p '#' = false)
    (h : ∀ c ∈ cs, p c = true) : Bare cs := by
  intro c hc
  have hpass := h c hc
  constructor
  · rintro rfl
    rw [question] at hpass
    cases hpass
  · rintro rfl
    rw [hash] at hpass
    cases hpass

theorem bare_of_isHostChar (h : cs.all isHostChar = true) : Bare cs :=
  bare_of_forall (by cbv) (by cbv) (List.all_eq_true.mp h)

/-- A server finds the query behind the host and the path. -/
theorem query_of_ofHost? (h : ofHost? cs = some t) : t.query.getD [] = queryIn cs := by
  unfold ofHost? at h
  simp only [drop_length_takeWhile] at h
  generalize hstops : (fun c : Char => !(c == '/' || c == '?' || c == '#')) = stops at h
  split at h
  · cases h
  · rename_i hhost
    rw [not_or, Bool.not_eq_true, Bool.not_eq_false'] at hhost
    have bare : Bare (cs.takeWhile stops) := bare_of_isHostChar hhost.2
    rw [← List.takeWhile_append_dropWhile (p := stops) (l := cs), queryIn_append bare]
    split at h
    · -- the host is followed by a path
      rename_i rest hrest
      rw [hrest]
      exact query_of_ofPath? h
    · -- the host is followed by a query at once, and the slash is put in
      obtain ⟨t', ht', rfl⟩ := Option.map_eq_some_iff.mp h
      exact (query_of_ofPath? ht' : t'.query.getD [] = _)

/-- The query that a server finds in an address is the query of the address. -/
theorem query_of_read? {s : String} (h : read? s = some t) : t.query.getD [] = queryOf s := by
  unfold read? at h
  rw [queryOf]
  generalize s.toList = cs at h
  dsimp only at h
  split at h
  · cases h
  · split at h
    · -- the target starts with its path
      exact query_of_ofPath? h
    · -- a lone star
      cases h
      rfl
    · rw [drop_length_takeWhile] at h
      split at h
      · rename_i rest hrest
        split at h
        · cases h
        · -- the host follows the scheme, and neither holds a query
          have bare : Bare (cs.takeWhile isSchemeChar) :=
            bare_of_forall (by decide) (by decide) (List.all_eq_true.mp List.all_takeWhile)
          have slashes : Bare [':', '/', '/'] := by decide
          rw [← List.takeWhile_append_dropWhile (p := isSchemeChar) (l := cs), hrest,
            queryIn_append bare]
          exact (query_of_ofHost? h).trans (queryIn_append slashes rest).symm
      · -- a host without a scheme has no query
        split at h
        · rename_i hhost
          cases h
          exact (queryIn_of_bare (bare_of_isHostChar hhost)).symm
        · cases h

end Target

end Http

/-! ## The address of the viewer -/

namespace Viewer.Arguments

open Http

variable {a : Arguments}

def watched (a : Arguments) : Topic :=
  match a.room, a.branch, a.device, a.user with
  | some room, _, _, _ => .room room
  | none, some branch, _, _ => .branch branch
  | none, none, some device, some user => .deviceOwner device user
  | _, _, _, _ => .allRooms

/-- The fields that the arguments put into the query. -/
def fields (a : Arguments) : List (String × Word) :=
  match a.room, a.branch, a.device, a.user with
  | some room, _, _, _ => [("roomId", room)]
  | none, some branch, _, _ => [("branchId", branch)]
  | none, none, some device, some user => [("deviceId", device), ("userId", user)]
  | _, _, _, _ => []

/-- The address without a query. -/
def base (a : Arguments) : String :=
  a.url.getD "ws://127.0.0.1:9010/ws"

/-- There are four kinds of arguments. -/
theorem cases_on_kind (a : Arguments) :
    (∃ room, a.fields = [("roomId", room)] ∧ a.watched = .room room ∧
      a.endpoint = a.base ++ "?roomId=" ++ Decimal.word room) ∨
    (∃ branch, a.fields = [("branchId", branch)] ∧ a.watched = .branch branch ∧
      a.endpoint = a.base ++ "?branchId=" ++ Decimal.word branch) ∨
    (∃ device user, a.fields = [("deviceId", device), ("userId", user)] ∧
      a.watched = .deviceOwner device user ∧
      a.endpoint = a.base ++ "?deviceId=" ++ Decimal.word device ++ "&userId=" ++ Decimal.word user) ∨
    a.fields = [] ∧ a.watched = .allRooms ∧ a.endpoint = a.base := by
  -- a room comes before a branch, and a branch before a device with its owner
  obtain ⟨url, room, branch, device, user, report⟩ := a
  cases room with
  | some room => exact .inl ⟨room, rfl, rfl, rfl⟩
  | none =>
    cases branch with
    | some branch => exact .inr (.inl ⟨branch, rfl, rfl, rfl⟩)
    | none =>
      cases device with
      | none => exact .inr (.inr (.inr ⟨rfl, rfl, rfl⟩))
      | some device =>
        cases user with
        | none => exact .inr (.inr (.inr ⟨rfl, rfl, rfl⟩))
        | some user => exact .inr (.inr (.inl ⟨device, user, rfl, rfl, rfl⟩))

theorem plain_fields (a : Arguments) : ∀ f ∈ a.fields, ViewerQuery.Plain f.1 := by
  have hroom : ViewerQuery.Plain "roomId" := by decide
  have hbranch : ViewerQuery.Plain "branchId" := by decide
  have hdevice : ViewerQuery.Plain "deviceId" := by decide
  have huser : ViewerQuery.Plain "userId" := by decide
  rcases a.cases_on_kind with ⟨room, h, -⟩ | ⟨branch, h, -⟩ | ⟨device, user, h, -⟩ | ⟨h, -⟩ <;>
    simp [h, hroom, hbranch, hdevice, huser]

theorem bare_base (bare : ∀ url, a.url = some url → Target.Bare url.toList) : Target.Bare a.base.toList := by
  unfold base
  cases hurl : a.url with
  | none =>
    rw [Option.getD_none]
    decide
  | some url => exact bare url hurl

/-- The query of the address has the fields. -/
theorem queryOf_endpoint (bare : ∀ url, a.url = some url → Target.Bare url.toList) :
    Target.queryOf a.endpoint = ViewerQuery.written a.fields := by
  -- no fragment is begun by the names or the numerals of the fields
  have hnumeral : ∀ i : Int, '#' ∉ Decimal.chars i :=
    Decimal.not_mem_chars (by decide) (by decide)
  have visible : '#' ∉ ViewerQuery.written a.fields := by
    rcases a.cases_on_kind with ⟨room, h, -⟩ | ⟨branch, h, -⟩ | ⟨device, user, h, -⟩ | ⟨h, -⟩ <;>
      simp [h, ViewerQuery.written, ViewerQuery.field, hnumeral]
  rcases a.cases_on_kind with
    ⟨room, h, -, haddress⟩ | ⟨branch, h, -, haddress⟩ | ⟨device, user, h, -, haddress⟩ | ⟨h, -, haddress⟩
  · refine Target.queryOf_eq (bare_base bare) visible ?_
    simp [haddress, h, ViewerQuery.written, ViewerQuery.field, Decimal.toList_word]
  · refine Target.queryOf_eq (bare_base bare) visible ?_
    simp [haddress, h, ViewerQuery.written, ViewerQuery.field, Decimal.toList_word]
  · refine Target.queryOf_eq (bare_base bare) visible ?_
    simp [haddress, h, ViewerQuery.written, ViewerQuery.field, Decimal.toList_word]
  · -- without fields there is no query, as the url has none
    rw [haddress, h]
    exact Target.queryIn_of_bare (bare_base bare)

/-- The server reads the fields as what the viewer watches. -/
theorem topic_fields (a : Arguments) :
    ∃ q, ViewerQuery.read? (ViewerQuery.written a.fields) = some q ∧ q.topic = .ok a.watched := by
  -- the first value that is read for a key is taken
  have htake : ∀ w : Word, ViewerQuery.take? none (Decimal.chars w.toInt) = some w := fun w => by
    rw [ViewerQuery.take?, Decimal.integer?_chars]
    exact Decimal.word?_toInt w
  rw [ViewerQuery.read?_written (plain_fields a)]
  rcases a.cases_on_kind with
    ⟨room, h, hwatched, -⟩ | ⟨branch, h, hwatched, -⟩ | ⟨device, user, h, hwatched, -⟩ | ⟨h, hwatched, -⟩
  · refine ⟨{ room := some room }, ?_, hwatched ▸ rfl⟩
    simp [h, ViewerQuery.add?, htake]
  · refine ⟨{ branch := some branch }, ?_, hwatched ▸ rfl⟩
    simp [h, ViewerQuery.add?, htake]
  · refine ⟨{ device := some device, user := some user }, ?_, hwatched ▸ rfl⟩
    simp [h, ViewerQuery.add?, htake]
  · refine ⟨{}, ?_, hwatched ▸ rfl⟩
    rw [h]
    rfl

theorem ofWords_eq_ok {words : List String} (h : ofWords words = .ok a) :
    a.isContradictory = false ∧ a.isIncomplete = false := by
  unfold ofWords at h
  cases hread : CommandLine.read options (fun _ => none) {} words with
  | error e =>
    rw [hread] at h
    cases h
  | ok a' =>
    rw [hread] at h
    -- the words are read without a fault, and both checks pass
    simp only [bind, Except.bind] at h
    split at h
    · cases h
    · rename_i hclear
      split at h
      · cases h
      · rename_i hcomplete
        cases h
        exact ⟨Bool.eq_false_iff.mpr hclear, Bool.eq_false_iff.mpr hcomplete⟩

/-- Of the arguments that the command line takes, at most one says what to watch, and a device comes with its
owner. -/
structure Clear (a : Arguments) : Prop where
  room : a.room.isSome = true → a.branch = none ∧ a.device = none
  branch : a.branch.isSome = true → a.room = none ∧ a.device = none
  device : a.device.isSome = true → a.room = none ∧ a.branch = none ∧ a.user.isSome = true

theorem clear_of_ofWords {words : List String} (h : ofWords words = .ok a) : a.Clear := by
  obtain ⟨hclear, hcomplete⟩ := ofWords_eq_ok h
  unfold isContradictory at hclear
  unfold isIncomplete at hcomplete
  -- two selectors would contradict, and half a pair is incomplete
  constructor
  · intro hroom
    cases hb : a.branch <;> cases hd : a.device <;> simp_all
  · intro hbranch
    cases hr : a.room <;> cases hd : a.device <;> simp_all
  · intro hdevice
    cases hr : a.room <;> cases hb : a.branch <;> simp_all

/-- **The viewer and the server agree.** The arguments of a viewer make an address, and the query in that address
is read as what the arguments ask for: a room, else a branch, else a device with its owner, else all rooms. The
query never selects in two ways. -/
theorem endpoint_agrees {words : List String} {a : Arguments} (accepted : ofWords words = .ok a)
    (bare : ∀ url, a.url = some url → Target.Bare url.toList) :
    (∃ q, ViewerQuery.read? (Target.queryOf a.endpoint) = some q ∧ q.topic = .ok a.watched) ∧
    (∀ x ∈ (ViewerQuery.keys (Target.queryOf a.endpoint)).filterMap ViewerQuery.Selector.ofKey?,
      ∀ y ∈ (ViewerQuery.keys (Target.queryOf a.endpoint)).filterMap ViewerQuery.Selector.ofKey?, x = y) ∧
    (∀ t, Target.read? a.endpoint = some t → openViewer t = .ok a.watched) ∧ a.Clear := by
  rw [queryOf_endpoint bare, ViewerQuery.keys_written (plain_fields a)]
  refine ⟨topic_fields a, ?_, fun t ht => ?_, clear_of_ofWords accepted⟩
  · -- the keys of one kind select the same
    rcases a.cases_on_kind with ⟨room, h, -⟩ | ⟨branch, h, -⟩ | ⟨device, user, h, -⟩ | ⟨h, -⟩ <;>
      simp [h, ViewerQuery.Selector.ofKey?]
  · -- what the server reads is the query of the address
    obtain ⟨q, hq, htopic⟩ := topic_fields a
    rw [openViewer, Target.query_of_read? ht, queryOf_endpoint bare, hq]
    dsimp only
    rw [htopic]

/-- A device with the least number there is, and an owner that is given with a plus sign. -/
theorem endpoint_agrees_owner :
    ofWords ["--url=wss://rooms.example/ws", "--device-id=-9223372036854775808", "--user-id", "+7"] =
      .ok { url := some "wss://rooms.example/ws", device := some (-9223372036854775808),
            user := some 7 } ∧
    ∃ q, ViewerQuery.read? (Target.queryOf (endpoint
        { url := some "wss://rooms.example/ws", device := some (-9223372036854775808),
          user := some 7 })) = some q ∧
      q.topic = .ok (.deviceOwner (-9223372036854775808) 7) := by
  have accepted : ofWords
      ["--url=wss://rooms.example/ws", "--device-id=-9223372036854775808", "--user-id", "+7"] =
      .ok { url := some "wss://rooms.example/ws", device := some (-9223372036854775808),
            user := some 7 } := by
    cbv
  refine ⟨accepted, (endpoint_agrees accepted ?_).1⟩
  rintro url ⟨rfl⟩
  decide

end Viewer.Arguments

end Occupancy
