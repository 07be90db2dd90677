import ModelRegistry.Proofs.BootstrapOrder
import ModelRegistry.Proofs.NameParts

/-!
# Names of one kind

Under the built-in convention two names name one kind only if they are the same, or if one is
the other after the stem `Core`. Groups, versions and kinds can be read back: no two stems
stand for one group, except that `Core` and no stem both stand for the core group, and no two
versions are written the same. A name after `Core` names what it names by itself only if it
has no stem of its own; otherwise that stem stays in the kind. A building reports a collision
for each candidate whose kind an earlier one has, so the names of the two are such names.
-/

namespace ModelRegistry

namespace Naming

/-- A name is another one, which begins with no built-in stem, after the stem `Core`. -/
def CoreForm (name other : String) : Prop :=
  name = "Core" ++ other ∧ ∀ entry ∈ builtinStems, ¬ entry.stem.toList <+: other.toList

/-- Two names are the same up to the stem of the core group. -/
def SameUpToCore (one other : String) : Prop :=
  one = other ∨ CoreForm one other ∨ CoreForm other one

/-- A built-in stem that begins another one is that one. -/
theorem builtinStems_apart :
    ∀ one ∈ builtinStems, ∀ other ∈ builtinStems, one.stem.toList <+: other.stem.toList →
      one = other := by
  decide +kernel

/-- Only the stem `Core` and the empty stem stand for one group. -/
theorem stem_of_group :
    ∀ one ∈ ⟨"", ""⟩ :: builtinStems, ∀ other ∈ ⟨"", ""⟩ :: builtinStems,
      one.group = other.group → one = other ∨
        one = ⟨"Core", ""⟩ ∧ other = ⟨"", ""⟩ ∨ other = ⟨"Core", ""⟩ ∧ one = ⟨"", ""⟩ := by
  decide +kernel

/-- No two versions are written the same. -/
theorem version_of_written :
    ∀ one ∈ "" :: versionNames, ∀ other ∈ "" :: versionNames,
      writtenVersion one = writtenVersion other → one = other := by
  decide +kernel

variable {naming : Naming} {one other name : String} {kind kind' : GroupVersionKind}

/-- The kind that a name names is what its stem, its version and the rest stand for. -/
theorem eq_of_resolve (h : naming.resolve name = .ok kind) :
    isName name.toList ∧
      kind = ⟨(stemOf naming.stems name.toList).group,
        writtenVersion (versionOf (unstemmed naming.stems name.toList)),
        String.ofList (unversioned (unstemmed naming.stems name.toList))⟩ := by
  simp only [resolve_eq] at h
  split at h
  · rename_i form
    split at h
    · cases h
    · cases h
      exact ⟨form, rfl⟩
  · cases h

/-- Two names name one kind exactly if their stems stand for one group and nothing else
sets them apart. -/
theorem resolve_eq_resolve_iff (hone : naming.resolve one = .ok kind)
    (hother : naming.resolve other = .ok kind') :
    naming.resolve one = naming.resolve other ↔
      (stemOf naming.stems one.toList).group = (stemOf naming.stems other.toList).group ∧
        unstemmed naming.stems one.toList = unstemmed naming.stems other.toList := by
  rw [hone, hother, Except.ok.injEq, (eq_of_resolve hone).2, (eq_of_resolve hother).2,
    GroupVersionKind.mk.injEq]
  refine and_congr_right fun _ => ⟨?_, fun h => by rw [h]; exact ⟨rfl, rfl⟩⟩
  rintro ⟨hversion, hkind⟩
  rw [← version_append_unversioned (unstemmed naming.stems one.toList),
    ← version_append_unversioned (unstemmed naming.stems other.toList),
    version_of_written _ (versionOf_mem _) _ (versionOf_mem _) hversion,
    String.ofList_injective hkind]

/-- The stem of a name under the built-in convention. -/
theorem stemOf_builtin_mem (name : List Char) :
    stemOf builtinStems name ∈ ⟨"", ""⟩ :: builtinStems := by
  rcases stemOf_cases builtinStems name with mem | ⟨none, -⟩
  · exact List.mem_cons_of_mem _ mem
  · exact none ▸ List.mem_cons_self

/-- The stem of a name is the built-in one that the name begins with. -/
theorem stemOf_eq_of_begins {entry : GroupStem} {name : List Char} (mem : entry ∈ builtinStems)
    (begins : entry.stem.toList <+: name) : stemOf builtinStems name = entry := by
  rcases stemOf_cases builtinStems name with hm | ⟨-, none⟩
  · have hp : (stemOf builtinStems name).stem.toList <+: name :=
      ⟨_, stem_append_unstemmed builtinStems name⟩
    rcases List.prefix_or_prefix_of_prefix hp begins with h | h
    · exact builtinStems_apart _ hm _ mem h
    · exact (builtinStems_apart _ mem _ hm h).symm
  · exact absurd begins (none entry mem)

/-- A name has the empty stem exactly if it begins with no built-in one. -/
theorem stemOf_eq_empty_iff (name : List Char) :
    stemOf builtinStems name = ⟨"", ""⟩ ↔
      ∀ entry ∈ builtinStems, ¬ entry.stem.toList <+: name := by
  have hmem : (⟨"", ""⟩ : GroupStem) ∉ builtinStems := by decide +kernel
  constructor
  · intro h
    rcases stemOf_cases builtinStems name with mem | ⟨-, none⟩
    · exact absurd (h ▸ mem) hmem
    · exact none
  · intro none
    rcases stemOf_cases builtinStems name with mem | ⟨h, -⟩
    · exact absurd ⟨_, stem_append_unstemmed builtinStems name⟩ (none _ mem)
    · exact h

/-- A name is another one after `Core` exactly if `Core` is its stem, the other one has none
and nothing else sets them apart. -/
theorem coreForm_iff :
    CoreForm one other ↔
      stemOf builtinStems one.toList = ⟨"Core", ""⟩ ∧ stemOf builtinStems other.toList = ⟨"", ""⟩ ∧
        unstemmed builtinStems one.toList = unstemmed builtinStems other.toList := by
  have hone := stem_append_unstemmed builtinStems one.toList
  rw [CoreForm, ← stemOf_eq_empty_iff, ← String.toList_inj, String.toList_append]
  constructor
  · rintro ⟨heq, hempty⟩
    have hcore : stemOf builtinStems one.toList = ⟨"Core", ""⟩ :=
      stemOf_eq_of_begins (by decide +kernel) (heq ▸ List.prefix_append _ _)
    rw [hcore] at hone
    have hrest : unstemmed builtinStems one.toList = other.toList :=
      List.append_cancel_left (hone.trans heq)
    exact ⟨hcore, hempty, hrest.trans (unstemmed_of_empty hempty).symm⟩
  · rintro ⟨hcore, hempty, hrest⟩
    rw [hcore, hrest, unstemmed_of_empty hempty] at hone
    exact ⟨hone.symm, hempty⟩

/-- After `Core` a stem of another group is no stem, but part of the kind. -/
example : builtin.resolve "CoreAppsV1Deployment" = .ok ⟨"", "", "AppsV1Deployment"⟩ := by rfl

/-- Two names are the same up to `Core` exactly if their stems stand for one group and nothing
else sets them apart. -/
theorem sameUpToCore_iff :
    SameUpToCore one other ↔
      (stemOf builtinStems one.toList).group = (stemOf builtinStems other.toList).group ∧
        unstemmed builtinStems one.toList = unstemmed builtinStems other.toList := by
  rw [SameUpToCore, coreForm_iff, coreForm_iff]
  constructor
  · rintro (rfl | ⟨hone, hother, hrest⟩ | ⟨hother, hone, hrest⟩)
    · exact ⟨rfl, rfl⟩
    · rw [hone, hother]
      exact ⟨rfl, hrest⟩
    · rw [hone, hother]
      exact ⟨rfl, hrest.symm⟩
  · rintro ⟨hgroup, hrest⟩
    have hone := stem_append_unstemmed builtinStems one.toList
    rcases stem_of_group _ (stemOf_builtin_mem one.toList) _ (stemOf_builtin_mem other.toList)
      hgroup with same | core | core
    · rw [same, hrest, stem_append_unstemmed] at hone
      exact .inl (String.toList_injective hone.symm)
    · exact .inr (.inl ⟨core.1, core.2, hrest⟩)
    · exact .inr (.inr ⟨core.1, core.2, hrest.symm⟩)

end Naming

/-- A candidate names a kind exactly if its name resolves to it. -/
theorem Candidate.kind?_eq_some_iff {naming : Naming} {candidate : Candidate}
    {kind : GroupVersionKind} :
    candidate.kind? naming = some kind ↔ naming.resolve candidate.name = .ok kind := by
  unfold kind?
  cases naming.resolve candidate.name <;> simp [Except.toOption]

namespace Bootstrap

variable {naming : Naming} {candidates : List Candidate} {kind : GroupVersionKind}
  {previous current : ModelType}

/-- What is reported first stays. -/
theorem events_progress_append (naming : Naming) (first second : List Candidate) :
    (progress naming first).events <+: (progress naming (first ++ second)).events := by
  induction second using List.reverseRecOn with
  | nil => rw [List.append_nil]
  | append_singleton rest last ih =>
    rw [← List.append_assoc, progress_concat, Progress.events_take]
    exact ih.trans (List.prefix_append _ _)

/-- What is reported about candidates is reported when one of them is taken up. -/
theorem mem_events_progress_iff {event : Event} :
    event ∈ (progress naming candidates).events ↔
      ∃ earlier candidate later, candidates = earlier ++ candidate :: later ∧
        event ∈ Progress.noted naming (progress naming earlier).byKind.lookup candidate := by
  constructor
  · intro mem
    induction candidates using List.reverseRecOn with
    | nil => simp [progress, Progress.start] at mem
    | append_singleton rest last ih =>
      rw [progress_concat, Progress.events_take, List.mem_append] at mem
      rcases mem with mem | mem
      · obtain ⟨earlier, candidate, later, rfl, h⟩ := ih mem
        exact ⟨earlier, candidate, later ++ [last], by simp, h⟩
      · exact ⟨rest, last, [], rfl, mem⟩
  · rintro ⟨earlier, candidate, later, rfl, h⟩
    rw [List.append_cons]
    refine (events_progress_append naming _ later).mem ?_
    rw [progress_concat, Progress.events_take]
    exact List.mem_append_right _ h

/-- A candidate reports a collision exactly if its kind has a type already. -/
theorem kindCollision_mem_noted_iff {typeOf : GroupVersionKind → Option ModelType}
    {candidate : Candidate} :
    .kindCollision kind previous current ∈ Progress.noted naming typeOf candidate ↔
      candidate.kind? naming = some kind ∧ typeOf kind = some previous ∧
        candidate.model = current := by
  rw [Candidate.kind?_eq_some_iff, Progress.noted]
  cases naming.resolve candidate.name with
  | error error => simp
  | ok found =>
    simp only [Option.mem_toList, Option.map_eq_some_iff, Event.kindCollision.injEq,
      Except.ok.injEq]
    constructor
    · rintro ⟨_, hp, rfl, rfl, rfl⟩
      exact ⟨rfl, hp, rfl⟩
    · rintro ⟨rfl, hp, rfl⟩
      exact ⟨previous, hp, rfl, rfl, rfl⟩

/-- A collision is reported exactly for a candidate whose kind some earlier one has, with the
type of the last of these. -/
theorem kindCollision_mem_buildEvents_iff :
    .kindCollision kind previous current ∈ buildEvents naming candidates ↔
      ∃ earlier one between other later,
        candidates = earlier ++ one :: between ++ other :: later ∧
        one.model = previous ∧ other.model = current ∧
        one.kind? naming = some kind ∧ other.kind? naming = some kind ∧
        ∀ candidate ∈ between, candidate.kind? naming ≠ some kind := by
  have hprogress : .kindCollision kind previous current ∈ buildEvents naming candidates ↔
      .kindCollision kind previous current ∈ (progress naming candidates).events := by
    simp [buildEvents]
  rw [hprogress, mem_events_progress_iff]
  simp only [kindCollision_mem_noted_iff, lookup_progress, Option.map_eq_some_iff,
    owner?_eq_some_iff]
  constructor
  · rintro ⟨_, other, later, rfl, hother, ⟨one, ⟨hone, earlier, between, rfl, hbetween⟩, hprevious⟩,
      hcurrent⟩
    exact ⟨earlier, one, between, other, later, rfl, hprevious, hcurrent, hone, hother, hbetween⟩
  · rintro ⟨earlier, one, between, other, later, rfl, hprevious, hcurrent, hone, hother, hbetween⟩
    exact ⟨_, other, later, rfl, hother, ⟨one, ⟨hone, earlier, between, rfl, hbetween⟩, hprevious⟩,
      hcurrent⟩

/-- Under the built-in convention two names that name kinds name the same one exactly if they
are the same or one is the other, which begins with no built-in stem, after `Core`. So a
building reports a collision exactly for a candidate whose kind an earlier one has, and the
names of the two are the same but for `Core`. -/
theorem collisions_up_to_core :
    (∀ one other kind kind', Naming.builtin.resolve one = .ok kind →
      Naming.builtin.resolve other = .ok kind' →
      (Naming.builtin.resolve one = Naming.builtin.resolve other ↔
        one = other ∨ Naming.CoreForm one other ∨ Naming.CoreForm other one)) ∧
    (∀ candidates kind previous current,
      .kindCollision kind previous current ∈ buildEvents .builtin candidates ↔
        ∃ earlier one between other later,
          candidates = earlier ++ one :: between ++ other :: later ∧
          one.model = previous ∧ other.model = current ∧
          one.kind? .builtin = some kind ∧ other.kind? .builtin = some kind ∧
          (∀ candidate ∈ between, candidate.kind? .builtin ≠ some kind) ∧
          (one.name = other.name ∨ Naming.CoreForm one.name other.name ∨
            Naming.CoreForm other.name one.name)) := by
  have names : ∀ one other kind kind', Naming.builtin.resolve one = .ok kind →
      Naming.builtin.resolve other = .ok kind' →
      (Naming.builtin.resolve one = Naming.builtin.resolve other ↔
        Naming.SameUpToCore one other) := by
    intro one other kind kind' hone hother
    rw [Naming.resolve_eq_resolve_iff hone hother, Naming.sameUpToCore_iff]
    rfl
  refine ⟨names, fun candidates kind previous current => ?_⟩
  rw [kindCollision_mem_buildEvents_iff]
  constructor
  · rintro ⟨earlier, one, between, other, later, hc, hprevious, hcurrent, hone, hother, hbetween⟩
    have hr := Candidate.kind?_eq_some_iff.mp hone
    have hr' := Candidate.kind?_eq_some_iff.mp hother
    have same : Naming.SameUpToCore one.name other.name :=
      (names _ _ _ _ hr hr').mp (hr.trans hr'.symm)
    exact ⟨earlier, one, between, other, later, hc, hprevious, hcurrent, hone, hother, hbetween,
      same⟩
  · rintro ⟨earlier, one, between, other, later, hc, hprevious, hcurrent, hone, hother, hbetween, -⟩
    exact ⟨earlier, one, between, other, later, hc, hprevious, hcurrent, hone, hother, hbetween⟩

/-- A name and its form after `Core` name one kind, which the later candidate takes, though
another one comes between them. -/
theorem pod_after_core :
    let candidates : List Candidate := [⟨"core::CoreV1Pod", ⟨"First"⟩, .object⟩,
      ⟨"AppsV1Deployment", ⟨"Deployment"⟩, .object⟩, ⟨"V1Pod", ⟨"Second"⟩, .object⟩]
    let pod : GroupVersionKind := ⟨"", "v1", "Pod"⟩
    Naming.builtin.resolve "CoreV1Pod" = .ok pod ∧ Naming.builtin.resolve "V1Pod" = .ok pod ∧
      ("CoreV1Pod" = "V1Pod" ∨ Naming.CoreForm "CoreV1Pod" "V1Pod" ∨
        Naming.CoreForm "V1Pod" "CoreV1Pod") ∧
      .kindCollision pod ⟨"First"⟩ ⟨"Second"⟩ ∈ buildEvents .builtin candidates ∧
      ∃ earlier one between other later,
        candidates = earlier ++ one :: between ++ other :: later ∧
        one.model = ⟨"First"⟩ ∧ other.model = ⟨"Second"⟩ ∧
        one.kind? .builtin = some pod ∧ other.kind? .builtin = some pod ∧
        (∀ candidate ∈ between, candidate.kind? .builtin ≠ some pod) ∧
        (one.name = other.name ∨ Naming.CoreForm one.name other.name ∨
          Naming.CoreForm other.name one.name) := by
  intro candidates pod
  have hcore : Naming.builtin.resolve "CoreV1Pod" = .ok pod := by decide +kernel
  have hpod : Naming.builtin.resolve "V1Pod" = .ok pod := by decide +kernel
  have hcollision : .kindCollision pod ⟨"First"⟩ ⟨"Second"⟩ ∈ buildEvents .builtin candidates := by
    decide +kernel
  obtain ⟨names, collisions⟩ := collisions_up_to_core
  exact ⟨hcore, hpod, (names _ _ _ _ hcore hpod).mp (hcore.trans hpod.symm), hcollision,
    (collisions _ _ _ _).mp hcollision⟩

end Bootstrap

end ModelRegistry
