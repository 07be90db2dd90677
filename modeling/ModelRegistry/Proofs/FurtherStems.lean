import ModelRegistry.Mapper
import ModelRegistry.Proofs.NameParts

/-!
# Further stems

Further stems are tried behind the built-in ones, in their order. So they decide only about
names that begin with no built-in stem, stems put behind them only about names that begin
with none of those before, and a stem that begins with an earlier one decides about no name
at all: whatever begins with it begins with the earlier one too. Such a stem can be left out,
and the bootstrap layer is the same, with all that its building reports. Stems may be empty,
repeated, or look like versions; which stems are worth having is not said.
-/

namespace ModelRegistry

namespace Naming

/-- Behind some further stems an entry is never taken, since its stem begins with the stem of
one of them or with a built-in one. -/
def Overshadowed (earlier : List GroupStem) (entry : GroupStem) : Prop :=
  ∃ other ∈ builtinStems ++ earlier, other.stem.toList <+: entry.stem.toList

/-- Further stems that are left after entries that are never taken were left out, one after
the other. -/
inductive Thinned (extra : List GroupStem) : List GroupStem → Prop
  /-- Nothing was left out. -/
  | refl : Thinned extra extra
  /-- One more entry was left out. -/
  | leave {earlier later : List GroupStem} {entry : GroupStem}
      (thinned : Thinned extra (earlier ++ entry :: later))
      (overshadowed : Overshadowed earlier entry) : Thinned extra (earlier ++ later)

variable {one other : Naming} {stems more : List GroupStem} {name : List Char}

/-- What a name names depends on the stems only through the stem of the name. -/
theorem resolve_congr {name : String}
    (h : stemOf one.stems name.toList = stemOf other.stems name.toList) :
    one.resolve name = other.resolve name := by
  have hrest : unstemmed one.stems name.toList = unstemmed other.stems name.toList := by
    rw [unstemmed, unstemmed, h]
  rw [resolve_eq, resolve_eq, h, hrest]

/-- The stem of a name is the same with more stems behind the list, if the name begins with
none of them. -/
theorem stemOf_append_of_none (away : ∀ entry ∈ more, ¬ entry.stem.toList <+: name) :
    stemOf (stems ++ more) name = stemOf stems name := by
  have hf : (more.find? fun entry => entry.stem.toList <+: name) = none :=
    List.find?_eq_none.mpr fun entry mem => by simpa using away entry mem
  rw [stemOf, stemOf, List.find?_append, hf, Option.or_none]

/-- An entry behind one whose stem its own begins with is the stem of no name. -/
theorem stemOf_append_cons {entry : GroupStem} (later : List GroupStem)
    (covered : ∃ other ∈ stems, other.stem.toList <+: entry.stem.toList) :
    stemOf (stems ++ entry :: later) name = stemOf (stems ++ later) name := by
  by_cases begins : entry.stem.toList <+: name
  · -- then the name begins with the earlier one, and nothing behind that is looked at
    obtain ⟨other, mem, hp⟩ := covered
    have found : ∃ other ∈ stems, other.stem.toList <+: name := ⟨other, mem, hp.trans begins⟩
    rw [stemOf_append_left found, stemOf_append_left found]
  · simp only [stemOf, List.find?_append, List.find?_cons, begins, decide_false]

/-- Leaving out an entry that is never taken changes what no name names. -/
theorem resolve_withExtra_leave {earlier later : List GroupStem} {entry : GroupStem}
    (overshadowed : Overshadowed earlier entry) (name : String) :
    (withExtra (earlier ++ later)).resolve name =
      (withExtra (earlier ++ entry :: later)).resolve name := by
  apply resolve_congr
  simp only [withExtra, ← List.append_assoc]
  exact (stemOf_append_cons later overshadowed).symm

/-- Leaving out any number of them does not either. -/
theorem Thinned.resolve_eq {extra fewer : List GroupStem} (h : Thinned extra fewer)
    (name : String) : (withExtra fewer).resolve name = (withExtra extra).resolve name := by
  induction h with
  | refl => rfl
  | leave _ overshadowed ih => exact (resolve_withExtra_leave overshadowed name).trans ih

end Naming

namespace Bootstrap

/-- Two conventions under which every name names the same take up candidates alike. -/
theorem progress_congr {one other : Naming} (h : ∀ name, one.resolve name = other.resolve name)
    (candidates : List Candidate) : progress one candidates = progress other candidates := by
  have htake : Progress.take one = Progress.take other := by
    funext done candidate
    rw [Progress.take, Progress.take, h]
  rw [progress, progress, htake]

end Bootstrap

open Naming

/-- Whatever further stems there are:

* a name that begins with a built-in stem, or with none of the further ones, comes out as
  under the built-in convention, whether it names a kind or not;
* more stems behind them change nothing for a name that begins with one of those before;
* leaving out an entry whose stem begins with that of an earlier one, built-in or not,
  changes nothing for any name;
* so leaving out any number of such entries leaves the bootstrap layer of any candidates and
  the reports of its building as they are, and a mapper made with the fewer stems starts with
  the same registry and reports the same. -/
theorem further_stems_conservative (extra : List GroupStem) :
    (∀ name : String,
      ((∃ entry ∈ builtinStems, entry.stem.toList <+: name.toList) ∨
        ∀ entry ∈ extra, ¬ entry.stem.toList <+: name.toList) →
      (withExtra extra).resolve name = builtin.resolve name) ∧
    (∀ (more : List GroupStem) (name : String),
      (∃ entry ∈ builtinStems ++ extra, entry.stem.toList <+: name.toList) →
      (withExtra (extra ++ more)).resolve name = (withExtra extra).resolve name) ∧
    (∀ earlier entry later, extra = earlier ++ entry :: later → Overshadowed earlier entry →
      ∀ name, (withExtra (earlier ++ later)).resolve name = (withExtra extra).resolve name) ∧
    (∀ fewer, Thinned extra fewer → ∀ candidates,
      (∀ order, Bootstrap.build order (withExtra fewer) candidates =
        .build order (withExtra extra) candidates) ∧
      Bootstrap.buildEvents (withExtra fewer) candidates =
        Bootstrap.buildEvents (withExtra extra) candidates ∧
      ∀ hashing cpus (config : Config), config.extraStems = extra →
        let thinned := { config with extraStems := fewer }
        (Mapper.create hashing cpus thinned candidates).registry =
          (Mapper.create hashing cpus config candidates).registry ∧
        Mapper.createEvents hashing cpus thinned candidates =
          Mapper.createEvents hashing cpus config candidates) := by
  refine ⟨fun name h => ?_, fun more name begins => ?_, ?_, ?_⟩
  · apply resolve_congr
    rcases h with begins | away
    · exact stemOf_append_left begins
    · exact stemOf_append_of_none away
  · apply resolve_congr
    simp only [withExtra, ← List.append_assoc]
    exact stemOf_append_left begins
  · rintro earlier entry later rfl overshadowed name
    exact resolve_withExtra_leave overshadowed name
  · intro fewer thinned candidates
    have hprogress := Bootstrap.progress_congr thinned.resolve_eq candidates
    have hbuild : ∀ order, Bootstrap.build order (withExtra fewer) candidates =
        .build order (withExtra extra) candidates := by
      intro order
      rw [Bootstrap.build, Bootstrap.build, hprogress]
    have hevents : Bootstrap.buildEvents (withExtra fewer) candidates =
        Bootstrap.buildEvents (withExtra extra) candidates := by
      rw [Bootstrap.buildEvents, Bootstrap.buildEvents, hprogress]
    refine ⟨hbuild, hevents, ?_⟩
    rintro hashing cpus config rfl thin
    -- the number of stripes does not depend on the stems
    have hregistry : (Mapper.create hashing cpus thin candidates).registry =
        (Mapper.create hashing cpus config candidates).registry :=
      congrArg (Registry.ofBootstrap · hashing.kinds hashing.resources (config.stripes cpus))
        (hbuild hashing.order)
    refine ⟨hregistry, ?_⟩
    rw [Mapper.createEvents, Mapper.createEvents, hregistry]
    exact congrArg (· ++ _ ++ _) hevents

/-- Of four further stems one begins with another one and one with a built-in stem. Both can be
left out, though the last stem fits every name. -/
theorem two_stems_left_out :
    let extra : List GroupStem :=
      [⟨"Mesh", "mesh.io"⟩, ⟨"MeshV1", "later.io"⟩, ⟨"AppsV1", "never.io"⟩, ⟨"", "any.io"⟩]
    let fewer : List GroupStem := [⟨"Mesh", "mesh.io"⟩, ⟨"", "any.io"⟩]
    let candidates : List Candidate :=
      [⟨"mesh::MeshV1Node", ⟨"T0"⟩, .object⟩, ⟨"AppsV1Node", ⟨"T1"⟩, .object⟩,
        ⟨"V1Node", ⟨"T2"⟩, .object⟩]
    (withExtra extra).resolve "AppsV1Node" = builtin.resolve "AppsV1Node" ∧
      (withExtra (fewer ++ extra)).resolve "MeshV1Node" = (withExtra fewer).resolve "MeshV1Node" ∧
      (withExtra (extra.eraseIdx 1)).resolve "MeshV1Node" = (withExtra extra).resolve "MeshV1Node" ∧
      Bootstrap.build .asMapped (withExtra fewer) candidates =
        .build .asMapped (withExtra extra) candidates ∧
      (Bootstrap.build .asMapped (withExtra fewer) candidates).lookup ⟨"any.io", "v1", "Node"⟩ =
        some ⟨"T2"⟩ := by
  intro extra fewer candidates
  have mesh : Overshadowed [⟨"Mesh", "mesh.io"⟩] ⟨"MeshV1", "later.io"⟩ :=
    ⟨⟨"Mesh", "mesh.io"⟩, by decide +kernel, by decide +kernel⟩
  have apps : Overshadowed [⟨"Mesh", "mesh.io"⟩] ⟨"AppsV1", "never.io"⟩ :=
    ⟨⟨"Apps", "apps"⟩, by decide +kernel, by decide +kernel⟩
  have once : Thinned extra ([⟨"Mesh", "mesh.io"⟩] ++ [⟨"AppsV1", "never.io"⟩, ⟨"", "any.io"⟩]) :=
    .leave .refl mesh
  have thinned : Thinned extra fewer := .leave once apps
  obtain ⟨begins, -, left, layer⟩ := further_stems_conservative extra
  obtain ⟨-, behind, -, -⟩ := further_stems_conservative fewer
  refine ⟨begins _ (.inl (by decide +kernel)), behind extra _ (by decide +kernel),
    left [⟨"Mesh", "mesh.io"⟩] _ _ rfl mesh _, (layer fewer thinned candidates).1 _,
    by decide +kernel⟩

end ModelRegistry
