import ModelRegistry.Proofs.ConfigSections
import ModelRegistry.Proofs.DurationRoundTrip
import Mathlib.Data.List.Forall2

/-!
# A written configuration, loaded again

A configuration is written with every value present, the interval in words. Each value is
read back as it was, so the loaded configuration is the written one, whatever the interval,
the number of stripes and the stems are. A section that can be loaded need not be a written
one: it may leave values out, give them in a list or spell the interval in another way. Then
it is the configuration, not the section, that comes back.
-/

namespace ModelRegistry

/-- What is written for a stem gives the stem. -/
theorem GroupStem.givenBy_toJson (entry : GroupStem) : GivenBy entry.toJson entry :=
  .object (by simp) rfl rfl

namespace Config

/-- The section written for a configuration gives every value. -/
theorem gives_toJson (config : Config) : Gives config.toJson
    ⟨some (.text config.refreshInterval.text), some (.int config.stripesPerCpu.toNat),
      some (.array (config.extraStems.map GroupStem.toJson))⟩ :=
  .object (by simp)

/-- A configuration is read as it was written. -/
theorem ofJson_toJson (config : Config) : ofJson config.toJson = .ok config := by
  have hinterval : JsonReader.GivesDuration (.text config.refreshInterval.text)
      config.refreshInterval := ⟨_, rfl, DurationText.read?_text _⟩
  have hstems : GivesStems (.array (config.extraStems.map GroupStem.toJson)) config.extraStems :=
    ⟨_, rfl, List.forall₂_map_left_iff.mpr
      (List.forall₂_same.mpr fun entry _ => entry.givenBy_toJson)⟩
  exact ofJson_eq_ok_iff.mpr ⟨_, config.gives_toJson, hinterval, rfl, hstems⟩

/-- Every configuration survives being written:

* the section written for a configuration can be loaded, and the loaded configuration is the
  same in all its values;
* so a configuration that was loaded, from whatever section or from none, is loaded again
  from the section that is written for it. -/
theorem survives_writing :
    (∀ config : Config, load (some config.toJson) = .ok config) ∧
    (∀ (given : Option Json) (config : Config), load given = .ok config →
      load (some config.toJson) = load given) := by
  have hload : ∀ config : Config, load (some config.toJson) = .ok config := by
    intro config
    rw [load, ofJson_toJson]
    rfl
  refine ⟨hload, fun given config h => ?_⟩
  rw [hload config, h]

/-- A section in other words, with a value written twice and with values left out, comes
back as it was understood. -/
theorem other_words_survive :
    let given : Json := .object [("lock_stripes_per_cpu", .int 7),
      ("discovery_refresh_interval", .text " 1 000s 0.5h 2weeks999999999ns"),
      ("lock_stripes_per_cpu", .int 18446744073709551615)]
    let config : Config :=
      ⟨⟨1212400 * 1_000_000_000 + 999999999, by decide⟩, 18446744073709551615, []⟩
    load (some given) = .ok config ∧ load (some config.toJson) = load (some given) := by
  intro given config
  have h : load (some given) = .ok config := by rfl
  exact ⟨h, survives_writing.2 (some given) config h⟩

end Config

end ModelRegistry
