import ModelRegistry.DurationText
import ModelRegistry.JsonRecord
import ModelRegistry.Naming

/-!
# Configuration

How long a discovery answer stays valid, how many stripes the maps have for
each processor, and which further name stems there are. A configuration is
loaded from a section of JSON, an object or a list of at most three values, in
which every absent value has its default; without a section all have. It is
written with every value present.
-/

namespace ModelRegistry

open JsonReader

namespace GroupStem

/-- The fields of a stem. -/
def shape : RecordShape :=
  ⟨"ApiGroupPrefix", [("prefix", string.check), ("group", string.check)], true⟩

/-- Reads a stem. -/
def ofJson : JsonReader GroupStem :=
  shape.read
    (fun members => do
      let stem ← Members.field members "prefix" string
      let group ← Members.field members "group" string
      return ⟨stem, group⟩)
    (fun items => do
      let stem ← shape.item items 0 string
      let group ← shape.item items 1 string
      return ⟨stem, group⟩)

/-- Writes a stem. -/
def toJson (entry : GroupStem) : Json :=
  .object [("prefix", .text entry.stem), ("group", .text entry.group)]

end GroupStem

/-- Reads a duration from words. -/
def JsonReader.duration : JsonReader Duration
  | .text words =>
    match DurationText.read? words with
    | some value => .ok value
    | none => .error (.wrongValue (.text words) .duration)
  | other => .error (.wrongKind other.found .duration)

/-- The configuration of a mapper. -/
structure Config where
  /-- How long a discovery answer stays valid. -/
  refreshInterval : Duration
  /-- The stripes of a map for each processor. -/
  stripesPerCpu : UInt64
  /-- Stems tried after the built-in ones. -/
  extraStems : List GroupStem
deriving DecidableEq

/-- Why a configuration could not be loaded. -/
inductive ConfigError where
  /-- A value of the section could not be read. -/
  | invalid (fault : Fault)

/-- The wording of a configuration error. -/
def ConfigError.message : ConfigError → String
  | .invalid fault => "invalid model-mapper config: " ++ fault.message

namespace Config

/-- Half an hour, four stripes for each processor and no further stems. -/
def default : Config := ⟨.ofSeconds 1800, 4, []⟩

/-- The fields of a configuration. -/
def shape : RecordShape :=
  ⟨"ModelMapperConfig",
    [("discovery_refresh_interval", duration.check), ("lock_stripes_per_cpu", count.check),
      ("extra_api_groups", (list GroupStem.ofJson).check)], true⟩

/-- Reads a configuration; an absent value has its default. -/
def ofJson : JsonReader Config :=
  shape.read
    (fun members => do
      let interval ←
        Members.fieldOr members "discovery_refresh_interval" duration default.refreshInterval
      let stripes ← Members.fieldOr members "lock_stripes_per_cpu" count default.stripesPerCpu
      let stems ←
        Members.fieldOr members "extra_api_groups" (list GroupStem.ofJson) default.extraStems
      return ⟨interval, stripes, stems⟩)
    (fun items => do
      let interval ← RecordShape.itemOr items 0 duration default.refreshInterval
      let stripes ← RecordShape.itemOr items 1 count default.stripesPerCpu
      let stems ← RecordShape.itemOr items 2 (list GroupStem.ofJson) default.extraStems
      return ⟨interval, stripes, stems⟩)

/-- Writes a configuration. -/
def toJson (config : Config) : Json :=
  .object
    [("discovery_refresh_interval", .text config.refreshInterval.text),
      ("lock_stripes_per_cpu", .int config.stripesPerCpu.toNat),
      ("extra_api_groups", .array (config.extraStems.map GroupStem.toJson))]

/-- Loads a configuration from a section; without one it is the default. -/
def load : Option Json → Except ConfigError Config
  | none => .ok default
  | some given => (ofJson given).mapError .invalid

/-- The number of stripes on a host with some processors: their product with
the configured number as far as it fits 64 bits, and at least one. -/
def stripes (config : Config) (cpus : Nat) : Nat :=
  max 1 (min (cpus * config.stripesPerCpu.toNat) (UInt64.size - 1))

/-- There is always a stripe. -/
theorem stripes_pos (config : Config) (cpus : Nat) : 0 < config.stripes cpus := by
  simp only [stripes]
  omega

end Config

end ModelRegistry
