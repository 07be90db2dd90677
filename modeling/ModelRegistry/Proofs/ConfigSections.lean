import ModelRegistry.Config
import ModelRegistry.Proofs.JsonReaders

/-!
# Sections that can be loaded

A section gives a value for some of the three fields of a configuration: an object by their
names, a list of at most three by place. It can be loaded exactly if every value that it gives
is one that its field admits. Then each field is what its own value means, or its default if
there is none, and it does not matter in which of the two forms the values were given. Nothing
else can be loaded: neither a name that is no field, nor a value too many, nor `null`. Which of
several faults is reported is left open.
-/

namespace ModelRegistry

namespace JsonReader

/-- A value gives a duration: a text of which the words are one. -/
def GivesDuration (value : Json) (d : Duration) : Prop :=
  ∃ words, value = .text words ∧ DurationText.read? words = some d

/-- A duration is read exactly if a value gives it. -/
theorem duration_eq_ok_iff {value : Json} {d : Duration} :
    duration value = .ok d ↔ GivesDuration value d := by
  cases value with
  | text words =>
    cases hr : DurationText.read? words <;> simp [duration, GivesDuration, hr]
  | _ => simp [duration, GivesDuration]

end JsonReader

namespace GroupStem

/-- A value gives a stem: an object with a stem and a group that are texts and with no other
member, or a list of the two texts. -/
inductive GivenBy : Json → GroupStem → Prop
  /-- An object with the two members. -/
  | object {members : Members} {stem group : String}
      (known : ∀ member ∈ members, member.1 ∈ ["prefix", "group"])
      (stem_last : members.last? "prefix" = some (.text stem))
      (group_last : members.last? "group" = some (.text group)) :
      GivenBy (.object members) ⟨stem, group⟩
  /-- A list of the two texts. -/
  | array {stem group : String} : GivenBy (.array [.text stem, .text group]) ⟨stem, group⟩

/-- A stem is read exactly if a value gives it. -/
theorem ofJson_eq_ok_iff {value : Json} {entry : GroupStem} :
    ofJson value = .ok entry ↔ GivenBy value entry := by
  obtain ⟨stem, group⟩ := entry
  cases value with
  | object members =>
    rw [ofJson, RecordShape.read_object_eq_ok_iff, RecordShape.closed_admits_iff rfl (by decide)]
    simp only [bind_eq_ok_iff, Members.field_eq_ok_iff, JsonReader.string_eq_ok_iff, pure,
      Except.pure, Except.ok.injEq, GroupStem.mk.injEq]
    constructor
    · rintro ⟨⟨known, -⟩, _, ⟨_, hstem, rfl⟩, _, ⟨_, hgroup, rfl⟩, rfl, rfl⟩
      exact .object known hstem hgroup
    · rintro (⟨known, hstem, hgroup⟩ | -)
      refine ⟨⟨known, ?_⟩, stem, ⟨_, hstem, rfl⟩, group, ⟨_, hgroup, rfl⟩, rfl, rfl⟩
      refine List.forall_mem_cons.mpr
        ⟨fun value hv => ?_, List.forall_mem_singleton.mpr fun value hv => ?_⟩
      · cases hstem.symm.trans hv
        rfl
      · cases hgroup.symm.trans hv
        rfl
  | array items =>
    rw [ofJson, RecordShape.read_array_eq_ok_iff]
    simp only [bind_eq_ok_iff, RecordShape.item_eq_ok_iff, JsonReader.string_eq_ok_iff, pure,
      Except.pure, Except.ok.injEq, GroupStem.mk.injEq]
    constructor
    · rintro ⟨short, first, ⟨_, hstem, rfl⟩, second, ⟨_, hgroup, rfl⟩, rfl, rfl⟩
      have hitems : items = [.text first, .text second] := by
        refine List.ext_getElem? fun place => ?_
        match place with
        | 0 => exact hstem
        | 1 => exact hgroup
        | place + 2 => exact List.getElem?_eq_none (Nat.le_trans short (Nat.le_add_left 2 place))
      exact hitems ▸ .array
    · rintro ⟨⟩
      exact ⟨Nat.le_refl 2, stem, ⟨_, rfl, rfl⟩, group, ⟨_, rfl, rfl⟩, rfl, rfl⟩
  | _ => exact iff_of_false nofun nofun

end GroupStem

namespace Config

/-- What a section gives for each field of a configuration, if it gives anything. -/
structure Parts where
  /-- The value for the interval. -/
  interval : Option Json
  /-- The value for the number of stripes. -/
  stripes : Option Json
  /-- The value for the further stems. -/
  stems : Option Json

/-- A section gives values for the fields. -/
inductive Gives : Json → Parts → Prop
  /-- An object without other names gives under each name the value written last. -/
  | object {members : Members}
      (known : ∀ member ∈ members, member.1 ∈
        ["discovery_refresh_interval", "lock_stripes_per_cpu", "extra_api_groups"]) :
      Gives (.object members)
        ⟨members.last? "discovery_refresh_interval", members.last? "lock_stripes_per_cpu",
          members.last? "extra_api_groups"⟩
  /-- A list of at most three gives the values by place. -/
  | array {items : List Json} (short : items.length ≤ 3) :
      Gives (.array items) ⟨items[0]?, items[1]?, items[2]?⟩

/-- A value gives a number of stripes: an integer that 64 bits hold. -/
def GivesCount (value : Json) (n : UInt64) : Prop := value = .int n.toNat

/-- A value gives further stems: a list of values that each give one. -/
def GivesStems (value : Json) (stems : List GroupStem) : Prop :=
  ∃ items, value = .array items ∧ List.Forall₂ GroupStem.GivenBy items stems

/-- Every value that is given is one that its field admits. -/
structure Parts.Valid (parts : Parts) : Prop where
  /-- The interval is a text of which the words are a duration. -/
  interval : ∀ value ∈ parts.interval, ∃ d, JsonReader.GivesDuration value d
  /-- The number of stripes is an integer that 64 bits hold. -/
  stripes : ∀ value ∈ parts.stripes, ∃ n, GivesCount value n
  /-- The further stems are a list of stems. -/
  stems : ∀ value ∈ parts.stems, ∃ stems, GivesStems value stems

/-- Each field of a configuration is what its own value means, or its default. -/
structure Parts.LoadTo (parts : Parts) (config : Config) : Prop where
  /-- The interval. -/
  interval : Given JsonReader.GivesDuration default.refreshInterval parts.interval
    config.refreshInterval
  /-- The number of stripes. -/
  stripes : Given GivesCount default.stripesPerCpu parts.stripes config.stripesPerCpu
  /-- The further stems. -/
  stems : Given GivesStems default.extraStems parts.stems config.extraStems

/-- A section gives values in one way only. -/
theorem Gives.unique {value : Json} {parts others : Parts} (given : Gives value parts)
    (also : Gives value others) : parts = others := by
  cases given with
  | object known =>
    cases also
    rfl
  | array short =>
    cases also
    rfl

/-- Further stems are read exactly if a value gives them. -/
theorem list_ofJson_eq_ok_iff {value : Json} {stems : List GroupStem} :
    JsonReader.list GroupStem.ofJson value = .ok stems ↔ GivesStems value stems := by
  simp only [JsonReader.list_eq_ok_iff, GroupStem.ofJson_eq_ok_iff, GivesStems]

/-- Values can be loaded exactly if each is one that its field admits. -/
theorem Parts.valid_iff {parts : Parts} : parts.Valid ↔ ∃ config, parts.LoadTo config := by
  constructor
  · rintro ⟨hinterval, hstripes, hstems⟩
    obtain ⟨interval, hi⟩ := exists_given_iff.mpr hinterval
    obtain ⟨stripes, hs⟩ := exists_given_iff.mpr hstripes
    obtain ⟨stems, he⟩ := exists_given_iff.mpr hstems
    exact ⟨⟨interval, stripes, stems⟩, hi, hs, he⟩
  · rintro ⟨config, hi, hs, he⟩
    exact ⟨exists_given_iff.mp ⟨_, hi⟩, exists_given_iff.mp ⟨_, hs⟩, exists_given_iff.mp ⟨_, he⟩⟩

/-- A section is loaded exactly if it gives values that can be loaded. -/
theorem ofJson_eq_ok_iff {value : Json} {config : Config} :
    ofJson value = .ok config ↔ ∃ parts, Gives value parts ∧ parts.LoadTo config := by
  obtain ⟨interval, stripes, stems⟩ := config
  cases value with
  | object members =>
    rw [ofJson, RecordShape.read_object_eq_ok_iff, RecordShape.closed_admits_iff rfl (by decide)]
    simp only [bind_eq_ok_iff, Members.fieldOr_eq_ok_iff fun _ _ => JsonReader.duration_eq_ok_iff,
      Members.fieldOr_eq_ok_iff fun _ _ => JsonReader.count_eq_ok_iff,
      Members.fieldOr_eq_ok_iff fun _ _ => list_ofJson_eq_ok_iff, pure,
      Except.pure, Except.ok.injEq, Config.mk.injEq]
    constructor
    · rintro ⟨⟨known, -⟩, _, hi, _, hs, _, he, rfl, rfl, rfl⟩
      exact ⟨_, .object known, hi, hs, he⟩
    · rintro ⟨parts, ⟨known⟩, hi, hs, he⟩
      refine ⟨⟨known, ?_⟩, interval, hi, stripes, hs, stems, he, rfl, rfl, rfl⟩
      exact List.forall_mem_cons.mpr ⟨hi.check_eq_ok fun _ _ => JsonReader.duration_eq_ok_iff,
        List.forall_mem_cons.mpr ⟨hs.check_eq_ok fun _ _ => JsonReader.count_eq_ok_iff,
          List.forall_mem_singleton.mpr (he.check_eq_ok fun _ _ => list_ofJson_eq_ok_iff)⟩⟩
  | array items =>
    rw [ofJson, RecordShape.read_array_eq_ok_iff]
    simp only [bind_eq_ok_iff,
      RecordShape.itemOr_eq_ok_iff fun _ _ => JsonReader.duration_eq_ok_iff,
      RecordShape.itemOr_eq_ok_iff fun _ _ => JsonReader.count_eq_ok_iff,
      RecordShape.itemOr_eq_ok_iff fun _ _ => list_ofJson_eq_ok_iff, pure,
      Except.pure, Except.ok.injEq, Config.mk.injEq]
    constructor
    · rintro ⟨short, _, hi, _, hs, _, he, rfl, rfl, rfl⟩
      exact ⟨_, .array short, hi, hs, he⟩
    · rintro ⟨parts, given, hi, hs, he⟩
      cases given with
      | array short =>
      exact ⟨short, interval, hi, stripes, hs, stems, he, rfl, rfl, rfl⟩
  | _ => exact iff_of_false nofun nofun

/-- Whatever a section is:

* it can be loaded exactly if it is an object with no other names than those of the fields, or
  a list of at most three, and every value that it gives is one that its field admits;
* then each field of the configuration is what its own value means, or its default if there is
  none, whatever the other values are;
* so an object and a list that give the same values are loaded to the same configuration;
* a section that cannot be loaded is reported as invalid, and one that is neither an object
  nor a list as being of the wrong kind, `null` too. -/
theorem sections_loaded (value : Json) :
    ((∃ config, load (some value) = .ok config) ↔ ∃ parts, Gives value parts ∧ parts.Valid) ∧
    (∀ parts, Gives value parts → ∀ config,
      load (some value) = .ok config ↔ parts.LoadTo config) ∧
    (∀ other parts, Gives value parts → Gives other parts → ∀ config,
      load (some value) = .ok config ↔ load (some other) = .ok config) ∧
    ((∀ parts, Gives value parts → ¬ parts.Valid) →
      ∃ fault, load (some value) = .error (.invalid fault)) ∧
    ((∀ members, value ≠ .object members) → (∀ items, value ≠ .array items) →
      load (some value) =
        .error (.invalid (.wrongKind value.found (.record "ModelMapperConfig")))) := by
  have hload : ∀ value config, load (some value) = .ok config ↔
      ∃ parts, Gives value parts ∧ parts.LoadTo config := by
    intro value config
    rw [← ofJson_eq_ok_iff, load]
    cases ofJson value <;> simp [Except.mapError]
  have hparts : ∀ value parts, Gives value parts → ∀ config,
      load (some value) = .ok config ↔ parts.LoadTo config := by
    intro value parts given config
    rw [hload]
    refine ⟨?_, fun loads => ⟨parts, given, loads⟩⟩
    rintro ⟨others, also, loads⟩
    exact given.unique also ▸ loads
  have hloads : (∃ config, load (some value) = .ok config) ↔
      ∃ parts, Gives value parts ∧ parts.Valid := by
    simp only [hload, Parts.valid_iff]
    exact ⟨fun ⟨config, parts, given, loads⟩ => ⟨parts, given, config, loads⟩,
      fun ⟨parts, given, config, loads⟩ => ⟨config, parts, given, loads⟩⟩
  refine ⟨hloads, hparts value, ?_, ?_, ?_⟩
  · intro other parts given also config
    rw [hparts value parts given, hparts other parts also]
  · intro invalid
    cases hl : load (some value) with
    | ok config =>
      obtain ⟨parts, given, valid⟩ := hloads.mp ⟨config, hl⟩
      exact absurd valid (invalid parts given)
    | error error => exact ⟨error.1, rfl⟩
  · intro noObject noList
    cases value with
    | object members => exact absurd rfl (noObject members)
    | array items => exact absurd rfl (noList items)
    | _ => rfl

/-- Two values by name and the same two by place come out alike, the third field with its
default; a name that is no field is refused. -/
theorem two_values_in_both_forms :
    let named : Json := .object [("lock_stripes_per_cpu", .int 2),
      ("discovery_refresh_interval", .text "5m 30s")]
    let listed : Json := .array [.text "5m 30s", .int 2]
    let config : Config := ⟨.ofSeconds 330, 2, []⟩
    (∃ config, load (some named) = .ok config) ∧ load (some named) = .ok config ∧
      load (some listed) = .ok config ∧
      (∃ fault, load (some (.object [("unknown_field", .bool true)])) = .error (.invalid fault)) ∧
      load (some .null) = .error (.invalid (.wrongKind .null (.record "ModelMapperConfig"))) := by
  intro named listed config
  let parts : Parts := ⟨some (.text "5m 30s"), some (.int 2), none⟩
  have hnamed : Gives named parts := .object (by decide)
  have hlisted : Gives listed parts := .array (by decide)
  have hloads : parts.LoadTo config := ⟨⟨"5m 30s", rfl, rfl⟩, rfl, rfl⟩
  obtain ⟨loads, values, forms, -, -⟩ := sections_loaded named
  obtain ⟨-, -, -, refused, -⟩ := sections_loaded (.object [("unknown_field", .bool true)])
  obtain ⟨-, -, -, -, wrong⟩ := sections_loaded .null
  have hconfig : load (some named) = .ok config := (values parts hnamed config).mpr hloads
  refine ⟨loads.mpr ⟨parts, hnamed, Parts.valid_iff.mpr ⟨config, hloads⟩⟩, hconfig,
    (forms listed parts hnamed hlisted config).mp hconfig, refused ?_, wrong nofun nofun⟩
  rintro others ⟨known⟩
  exact absurd known (by decide)

end Config

end ModelRegistry
