import Occupancy.Proofs.Config.Layering
import Occupancy.Proofs.Reading.Views

/-!
# Configuration files

A layer that is written out is read back (`Layer.ofText?_render`), so that a file can hold any layer. Reading goes
setting by setting: each setting is about one field of layers (`Setting.IsOf`), and what its key says is put over
what was there. The settings are about all fields in their order (`settings_areOf`). With this, each situation of a
configuration file is one of a machine (`exists_configFile`).
-/

namespace Occupancy

open Json

namespace Config

/-! ## Kinds of values -/

namespace Kind

variable {β : Type}

/-- What is written of a value is read as that value, and is not null. -/
structure Lawful (kind : Kind β) : Prop where
  read_toJson : ∀ b, kind.read (Tree.ofValue (kind.toJson b)) = .ok b
  ne_null : ∀ b, Tree.ofValue (kind.toJson b) ≠ .null

theorem readNat_natural {limit n : Nat} (h : n ≤ limit) :
    Tree.readNat limit (Tree.ofValue (.natural n)) = .ok n := by
  simp [Tree.readNat, Tree.readInteger, Value.natural, Tree.ofValue, Number.toInt?_ofInt, h]

theorem lawful_text : text.Lawful where
  read_toJson := readText_text
  ne_null _ := nofun

theorem lawful_path : path.Lawful where
  read_toJson := readText_text
  ne_null _ := nofun

theorem lawful_truth : truth.Lawful where
  read_toJson := readBool_bool
  ne_null _ := nofun

/-- A bounded number is lawful as soon as its type holds the bound and loses nothing. -/
theorem lawful_small {limit : Nat} {ofNat : Nat → β} {toNat : β → Nat} (bounded : ∀ b, toNat b ≤ limit)
    (ofNat_toNat : ∀ b, ofNat (toNat b) = b) : (small limit ofNat toNat).Lawful where
  read_toJson b := by
    exact (congrArg (Except.map ofNat) (readNat_natural (bounded b))).trans
      (congrArg Except.ok (ofNat_toNat b))
  ne_null _ := nofun

theorem lawful_port : port.Lawful :=
  lawful_small (fun b => Nat.le_of_lt_succ b.toNat_lt) fun _ => UInt16.ofNat_toNat

theorem lawful_count : count.Lawful :=
  lawful_small (fun b => Nat.le_of_lt_succ b.toNat_lt) fun _ => UInt32.ofNat_toNat

theorem lawful_amount : amount.Lawful where
  read_toJson b := by
    exact (congrArg (Except.map UInt64.ofNat) (readNat_natural (Nat.le_of_lt_succ b.toNat_lt))).trans
      (congrArg Except.ok UInt64.ofNat_toNat)
  ne_null _ := nofun

end Kind

/-! ## Settings and fields -/

namespace Layer

variable {β : Type}

/-- The layer that says `o` of a field and all else as before. -/
def set (l : Layer) : Field β → Option β → Layer
  | .port, o => { l with port := o }
  | .configPath, o => { l with configPath := o }
  | .logDir, o => { l with logDir := o }
  | .logLevel, o => { l with logLevel := o }
  | .storeBackend, o => { l with storeBackend := o }
  | .databaseUrl, o => { l with databaseUrl := o }
  | .dbMaxConnections, o => { l with dbMaxConnections := o }
  | .applySchema, o => { l with applySchema := o }
  | .seedPath, o => { l with seedPath := o }
  | .brokerBackend, o => { l with brokerBackend := o }
  | .redisUrl, o => { l with redisUrl := o }
  | .brokerTimeoutMs, o => { l with brokerTimeoutMs := o }
  | .sweepIntervalSeconds, o => { l with sweepIntervalSeconds := o }
  | .publishTimeoutMs, o => { l with publishTimeoutMs := o }
  | .consumeBlockMs, o => { l with consumeBlockMs := o }
  | .reconnectBaseDelayMs, o => { l with reconnectBaseDelayMs := o }
  | .reconnectMaxDelayMs, o => { l with reconnectMaxDelayMs := o }
  | .viewerBufferSize, o => { l with viewerBufferSize := o }
  | .viewerWriteTimeoutMs, o => { l with viewerWriteTimeoutMs := o }
  | .tlsCertPath, o => { l with tlsCertPath := o }
  | .tlsKeyPath, o => { l with tlsKeyPath := o }

theorem set_get (l : Layer) (f : Field β) : l.set f (l.get f) = l := by
  cases f <;> rfl

/-- All fields, in their order. -/
def fields : List (Σ β, Field β) :=
  [⟨_, .port⟩, ⟨_, .configPath⟩, ⟨_, .logDir⟩, ⟨_, .logLevel⟩, ⟨_, .storeBackend⟩, ⟨_, .databaseUrl⟩,
   ⟨_, .dbMaxConnections⟩, ⟨_, .applySchema⟩, ⟨_, .seedPath⟩, ⟨_, .brokerBackend⟩, ⟨_, .redisUrl⟩,
   ⟨_, .brokerTimeoutMs⟩, ⟨_, .sweepIntervalSeconds⟩, ⟨_, .publishTimeoutMs⟩, ⟨_, .consumeBlockMs⟩,
   ⟨_, .reconnectBaseDelayMs⟩, ⟨_, .reconnectMaxDelayMs⟩, ⟨_, .viewerBufferSize⟩, ⟨_, .viewerWriteTimeoutMs⟩,
   ⟨_, .tlsCertPath⟩, ⟨_, .tlsKeyPath⟩]

/-- The layer that says of a field what `upper` says of it, or else what it said before. -/
def cover (upper : Layer) (l : Layer) (f : Σ β, Field β) : Layer :=
  l.set f.2 (upper.get f.2 <|> l.get f.2)

theorem foldl_cover (upper lower : Layer) : fields.foldl upper.cover lower = upper.above lower := by
  simp only [fields, List.foldl_cons, List.foldl_nil, cover, set, get, above]

theorem above_silent (l : Layer) : l.above {} = l := by
  simp [above]

end Layer

/-- The setting is about a field: it is the field that it writes and that it reads. -/
def Setting.IsOf (s : Setting) (f : Σ β, Layer.Field β) : Prop :=
  ∃ (name variableName : String) (kind : Kind f.1), kind.Lawful ∧
    s = .of s.key name variableName kind (·.get f.2) fun l b => l.set f.2 (some b)

/-- The settings are about the fields, in their order. -/
theorem settings_areOf : List.Forall₂ Setting.IsOf settings Layer.fields :=
  .cons ⟨_, _, _, Kind.lawful_port, rfl⟩ <|
  .cons ⟨_, _, _, Kind.lawful_path, rfl⟩ <|
  .cons ⟨_, _, _, Kind.lawful_path, rfl⟩ <|
  .cons ⟨_, _, _, Kind.lawful_text, rfl⟩ <|
  .cons ⟨_, _, _, Kind.lawful_text, rfl⟩ <|
  .cons ⟨_, _, _, Kind.lawful_text, rfl⟩ <|
  .cons ⟨_, _, _, Kind.lawful_count, rfl⟩ <|
  .cons ⟨_, _, _, Kind.lawful_truth, rfl⟩ <|
  .cons ⟨_, _, _, Kind.lawful_path, rfl⟩ <|
  .cons ⟨_, _, _, Kind.lawful_text, rfl⟩ <|
  .cons ⟨_, _, _, Kind.lawful_text, rfl⟩ <|
  .cons ⟨_, _, _, Kind.lawful_amount, rfl⟩ <|
  .cons ⟨_, _, _, Kind.lawful_amount, rfl⟩ <|
  .cons ⟨_, _, _, Kind.lawful_amount, rfl⟩ <|
  .cons ⟨_, _, _, Kind.lawful_amount, rfl⟩ <|
  .cons ⟨_, _, _, Kind.lawful_amount, rfl⟩ <|
  .cons ⟨_, _, _, Kind.lawful_amount, rfl⟩ <|
  .cons ⟨_, _, _, Kind.lawful_amount, rfl⟩ <|
  .cons ⟨_, _, _, Kind.lawful_amount, rfl⟩ <|
  .cons ⟨_, _, _, Kind.lawful_path, rfl⟩ <|
  .cons ⟨_, _, _, Kind.lawful_path, rfl⟩ .nil

theorem nodup_keys : (settings.map (·.key)).Nodup := by
  decide

variable {s : Setting} {f : Σ β, Layer.Field β} {l : Layer}

/-- A setting takes what is written of it over what is there. -/
theorem Setting.IsOf.take (h : s.IsOf f) {given : List String} (l' : Layer) :
    s.field.take (l', given) (Tree.ofValue (s.toJson l)) = .ok (l.cover l' f, s.key :: given) := by
  obtain ⟨_, _, kind, lawful, hs⟩ := h
  have hread := readOption_option (o := l.get f.2) (fun b _ => lawful.ne_null b) fun b _ => lawful.read_toJson b
  rw [hs]
  simp only [Setting.of, hread, Except.map, Layer.cover]
  cases l.get f.2 with
  | none => exact congrArg (fun k => Except.ok (k, s.key :: given)) (Layer.set_get l' f.2).symm
  | some b => rfl

/-- A setting is found by its key. -/
theorem find?_field (hmem : s ∈ settings) :
    (settings.map (·.field)).find? (·.name = s.key) = some s.field := by
  have hname : ∀ s ∈ settings, s.field.name = s.key := by decide
  obtain ⟨before, after, hsplit⟩ := List.append_of_mem hmem
  have hdistinct := nodup_keys
  rw [hsplit, List.map_append, List.map_cons] at hdistinct
  -- the search passes over the settings before, as none of them has this key
  rw [hsplit] at hname ⊢
  rw [List.map_append, List.find?_append, List.map_cons, List.find?_cons_of_pos (by simpa using hname s (by simp)),
    List.find?_eq_none.mpr, Option.none_or]
  rintro _ hbefore hsame
  obtain ⟨s', hs', rfl⟩ := List.mem_map.mp hbefore
  -- a setting before would have the same key
  have hkey : s'.key = s.key := by
    rw [← hname s' (List.mem_append_left _ hs')]
    simpa using hsame
  exact (List.nodup_append.mp hdistinct).2.2 _ (List.mem_map_of_mem hs') _ List.mem_cons_self hkey

/-- What is written of settings is taken setting by setting. -/
theorem readMembers_settings {later : List Setting} {fs : List (Σ β, Layer.Field β)}
    (areOf : List.Forall₂ Setting.IsOf later fs) (known : ∀ s ∈ later, s ∈ settings)
    (distinct : (later.map (·.key)).Nodup) {given : List String} (fresh : ∀ s ∈ later, s.key ∉ given)
    (l' : Layer) :
    ∃ given', readMembers (settings.map (·.field)) (Members.ofFields (later.map fun s => (s.key, s.toJson l)))
      (l', given) = .ok (fs.foldl l.cover l', given') := by
  -- one member for one setting, and no key may come twice
  induction areOf generalizing given l' with
  | nil => exact ⟨given, rfl⟩
  | @cons s f later fs isOf _ ih =>
    rw [List.map_cons, List.nodup_cons] at distinct
    obtain ⟨hnew, distinct⟩ := distinct
    have hgiven : s.field.isGiven (l', given) = false := by
      obtain ⟨_, _, _, -, hs⟩ := isOf
      rw [hs]
      simpa [Setting.of] using fresh s List.mem_cons_self
    -- the later keys stay fresh, since the keys are distinct
    have hfresh : ∀ s' ∈ later, s'.key ∉ s.key :: given := by
      intro s' hs'
      rw [List.mem_cons]
      rintro (hsame | hold)
      · exact hnew (hsame ▸ List.mem_map_of_mem hs')
      · exact fresh s' (List.mem_cons_of_mem _ hs') hold
    obtain ⟨given', hread⟩ := ih (fun s' hs' => known s' (List.mem_cons_of_mem _ hs')) distinct hfresh (l.cover l' f)
    -- the member is found by its key and read into its own field
    refine ⟨given', ?_⟩
    rw [List.map_cons, Members.ofFields, readMembers, find?_field (known s List.mem_cons_self)]
    simp only [hgiven, isOf.take, hread, List.foldl_cons]
    rfl

/-- **A layer is read back from a file that it is written to.** -/
theorem Layer.ofText?_render (l : Layer) : Layer.ofText? l.toJson.render = some l := by
  have hfresh : ∀ s ∈ settings, s.key ∉ ([] : List String) := fun _ _ => List.not_mem_nil
  obtain ⟨given, hmembers⟩ := readMembers_settings (l := l) settings_areOf (fun _ h => h) nodup_keys hfresh {}
  rw [Layer.foldl_cover, Layer.above_silent] at hmembers
  have hread : Layer.read (Tree.ofValue l.toJson) = .ok l := readRecord_object hmembers rfl
  rw [Layer.ofText?, readText, ofText_render]
  simp only [hread]
  rfl

end Config

/-! ## Situations -/

namespace Server

open Config

def configured (text : String) : Machine :=
  { disk := Host.Disk.write {} [Layer.usualFile] text 0 }

/-- What the settings file is found to hold is what its text reads as. -/
theorem configFile_configured (text : String) : (configured text).configFile Layer.usualFile =
    match Layer.ofText? text with
    | none => .senseless
    | some l => .holds l := by
  have hpath : (configured text).hasPath Layer.usualFile = true := rfl
  have hread : (configured text).read? Layer.usualFile = some text := rfl
  rw [Machine.configFile, hpath, hread]
  exact if_pos rfl

/-- Whatever may be at the path of a configuration file is there on a machine. -/
theorem exists_configFile (c : ConfigFile) : ∃ m : Machine, m.configFile Layer.usualFile = c := by
  cases c with
  | absent => exact ⟨{}, rfl⟩
  | unreadable => exact ⟨{ disk := Host.Disk.writeDirectory {} [Layer.usualFile] 0 }, rfl⟩
  | senseless =>
    have hlayer : Layer.ofText? "not json" = none := rfl
    exact ⟨configured "not json", by rw [configFile_configured, hlayer]⟩
  | holds l => exact ⟨configured l.toJson.render, by rw [configFile_configured, Layer.ofText?_render]⟩

end Server

end Occupancy
