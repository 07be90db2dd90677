import ModelRegistry.Mapper
import ModelRegistry.Proofs.BootstrapOrder

/-!
# The accounts of a building

The building of a bootstrap layer reports on each candidate by itself, at most once and in
order: one without a kind is left out, and one whose kind an earlier candidate has takes that
kind from the last of these. The counts in the summary are those of the candidates, whatever
names, categories and collisions are mixed. Each candidate is counted once, and each one with a
kind either adds a kind to the layer or is reported as a collision.
-/

namespace ModelRegistry

namespace Bootstrap

/-- The report that a candidate without a kind is left out. -/
def skip? (naming : Naming) (candidate : Candidate) : Option Event :=
  match naming.resolve candidate.name with
  | .error error => some (.candidateSkipped candidate.name error)
  | .ok _ => none

/-- The report that a candidate takes the kind of the last earlier one that has it. -/
def collision? (naming : Naming) (earlier : List Candidate) (candidate : Candidate) :
    Option Event :=
  (candidate.kind? naming).bind fun kind =>
    (owner? naming earlier kind).map fun previous =>
      .kindCollision kind previous.model candidate.model

/-- The report on a candidate that comes after some earlier ones, if there is one. -/
def report? (naming : Naming) (earlier : List Candidate) (candidate : Candidate) : Option Event :=
  (skip? naming candidate).or (collision? naming earlier candidate)

/-- The reports on some candidates in order, each with the candidates before it. -/
def reports (naming : Naming) (candidates : List Candidate) : List Event :=
  candidates.zipIdx.filterMap fun entry => report? naming (candidates.take entry.2) entry.1

variable {naming : Naming} {candidates : List Candidate}

/-- What a candidate reports when it is taken up after some earlier ones is its report. -/
theorem noted_progress (naming : Naming) (earlier : List Candidate) (candidate : Candidate) :
    Progress.noted naming (progress naming earlier).byKind.lookup candidate =
      (report? naming earlier candidate).toList := by
  unfold Progress.noted report? skip? collision? Candidate.kind?
  cases naming.resolve candidate.name with
  | error error => rfl
  | ok kind =>
    simp only [lookup_progress, Option.map_map, Except.toOption, Option.none_or, Option.bind_some]
    rfl

/-- The report on one more candidate comes last. -/
theorem reports_concat (naming : Naming) (candidates : List Candidate) (last : Candidate) :
    reports naming (candidates ++ [last]) =
      reports naming candidates ++ (report? naming candidates last).toList := by
  have hearlier : ∀ entry ∈ candidates.zipIdx,
      report? naming ((candidates ++ [last]).take entry.2) entry.1 =
        report? naming (candidates.take entry.2) entry.1 := by
    intro entry mem
    have hplace : entry.2 < candidates.length := by simpa using List.snd_lt_of_mem_zipIdx mem
    rw [List.take_append_of_le_length (by omega)]
  have hlast : ([last].zipIdx (0 + candidates.length)).filterMap (fun entry =>
      report? naming ((candidates ++ [last]).take entry.2) entry.1) =
        (report? naming candidates last).toList := by
    cases h : report? naming candidates last <;> simp [h]
  rw [reports, List.zipIdx_append, List.filterMap_append, List.filterMap_congr hearlier, hlast]
  rfl

/-- A building reports on its candidates one after the other. -/
theorem events_progress (naming : Naming) (candidates : List Candidate) :
    (progress naming candidates).events = reports naming candidates := by
  induction candidates using List.reverseRecOn with
  | nil => rfl
  | append_singleton rest last ih =>
    rw [progress_concat, Progress.events_take, ih, noted_progress, reports_concat]

/-- Of the report on a candidate the warning is that it is left out. -/
theorem filter_warn_report? (naming : Naming) (earlier : List Candidate) (candidate : Candidate) :
    (report? naming earlier candidate).filter (·.level = .warn) = skip? naming candidate := by
  unfold report? skip? collision? Candidate.kind?
  cases naming.resolve candidate.name with
  | error error => rfl
  | ok kind => cases h : owner? naming earlier kind <;> simp [Except.toOption, h, Event.level]

/-- Of the report on a candidate the rest is the collision. -/
theorem filter_debug_report? (naming : Naming) (earlier : List Candidate)
    (candidate : Candidate) :
    (report? naming earlier candidate).filter (·.level = .debug) =
      collision? naming earlier candidate := by
  unfold report? skip? collision? Candidate.kind?
  cases naming.resolve candidate.name with
  | error error => rfl
  | ok kind => cases h : owner? naming earlier kind <;> simp [Except.toOption, h, Event.level]

/-- The warnings of a building are that candidates are left out, in order. -/
theorem filter_warn_reports (naming : Naming) (candidates : List Candidate) :
    (reports naming candidates).filter (·.level = .warn) = candidates.filterMap (skip? naming) := by
  have hplaces : candidates.filterMap (skip? naming) =
      candidates.zipIdx.filterMap fun entry => skip? naming entry.1 := by
    conv_lhs => rw [← List.zipIdx_map_fst 0 candidates]
    simp only [List.filterMap_map, Function.comp_def]
  rw [hplaces]
  simp only [reports, List.filter_filterMap, filter_warn_report?]

/-- The details of a building are its collisions, in order. -/
theorem filter_debug_reports (naming : Naming) (candidates : List Candidate) :
    (reports naming candidates).filter (·.level = .debug) =
      candidates.zipIdx.filterMap fun entry =>
        collision? naming (candidates.take entry.2) entry.1 := by
  simp only [reports, List.filter_filterMap, filter_debug_report?]

/-- Taking up a candidate with a kind adds the kind or reports a collision. -/
theorem Progress.size_take (naming : Naming) (done : Progress) (candidate : Candidate) :
    (done.take naming candidate).byKind.size +
        (done.take naming candidate).events.countP Event.isCollision =
      done.byKind.size + done.events.countP Event.isCollision +
        if (candidate.kind? naming).isSome then 1 else 0 := by
  unfold take Candidate.kind?
  cases naming.resolve candidate.name with
  | error error => simp [Except.toOption, Event.isCollision]
  | ok kind =>
    have hsize := Table.size_insert done.byKind kind candidate.model
    cases h : done.byKind.lookup kind with
    | none => simp [Except.toOption, h, hsize]; omega
    | some previous => simp [Except.toOption, h, hsize, Event.isCollision]; omega

/-- The counts of a building that has taken up some candidates. -/
structure Progress.Accounts (naming : Naming) (candidates : List Candidate) (done : Progress) :
    Prop where
  /-- The objects are the candidates for objects that have a kind. -/
  objects : done.objects = candidates.countP fun candidate =>
    (candidate.kind? naming).isSome ∧ candidate.category = .object
  /-- The lists are the candidates for lists that have a kind. -/
  lists : done.lists = candidates.countP fun candidate =>
    (candidate.kind? naming).isSome ∧ candidate.category = .list
  /-- Those left out are the candidates without a kind. -/
  skipped : done.skipped = candidates.countP fun candidate => candidate.kind? naming = none
  /-- Each candidate is counted once. -/
  total : done.objects + done.lists + done.skipped = candidates.length
  /-- Each candidate with a kind adds a kind or is reported as a collision. -/
  balance : done.byKind.size + done.events.countP Event.isCollision = done.objects + done.lists

/-- One more candidate is counted once. -/
theorem Progress.Accounts.take {done : Progress} (h : done.Accounts naming candidates)
    (candidate : Candidate) :
    (done.take naming candidate).Accounts naming (candidates ++ [candidate]) := by
  obtain ⟨hobjects, hlists, hskipped⟩ := counts_take naming done candidate
  have hsize := size_take naming done candidate
  have hcounted :
      (if (candidate.kind? naming).isSome ∧ candidate.category = .object then 1 else 0) +
      (if (candidate.kind? naming).isSome ∧ candidate.category = .list then 1 else 0) =
        if (candidate.kind? naming).isSome then 1 else 0 := by
    cases candidate.category <;> simp
  have hskip : (if (candidate.kind? naming).isSome then 1 else 0) +
      (if candidate.kind? naming = none then 1 else 0) = 1 := by
    cases candidate.kind? naming <;> simp
  have htotal := h.total
  have hbalance := h.balance
  constructor
  · rw [hobjects, h.objects, List.countP_append, List.countP_singleton]
    simp only [decide_eq_true_eq]
  · rw [hlists, h.lists, List.countP_append, List.countP_singleton]
    simp only [decide_eq_true_eq]
  · rw [hskipped, h.skipped, List.countP_append, List.countP_singleton]
    simp only [decide_eq_true_eq]
  · rw [List.length_append, List.length_singleton]
    omega
  · omega

/-- A building counts every candidate once. -/
theorem accounts_progress (naming : Naming) (candidates : List Candidate) :
    (progress naming candidates).Accounts naming candidates := by
  induction candidates using List.reverseRecOn with
  | nil => exact ⟨rfl, rfl, rfl, rfl, rfl⟩
  | append_singleton rest last ih =>
    rw [progress_concat]
    exact ih.take last

/-- A candidate has no kind exactly if something is wrong with its name. -/
theorem kind?_eq_none_iff {candidate : Candidate} :
    candidate.kind? naming = none ↔ ∃ error, naming.resolve candidate.name = .error error := by
  unfold Candidate.kind?
  cases naming.resolve candidate.name <;> simp [Except.toOption]

/-- A bootstrap layer is empty exactly if no candidate has a kind. -/
theorem isEmpty_build_iff (walk : KindOrder) :
    (build walk naming candidates).isEmpty ↔
      ∀ candidate ∈ candidates, candidate.kind? naming = none := by
  rw [isEmpty, size, decide_eq_true_iff, build, size_progress, Finset.card_eq_zero,
    List.toFinset_eq_empty_iff, List.filterMap_eq_nil_iff]

/-- No building reports that nothing was bootstrapped. -/
theorem nothingBootstrapped_notMem_buildEvents (naming : Naming) (candidates : List Candidate) :
    .nothingBootstrapped ∉ buildEvents naming candidates := by
  intro mem
  rw [buildEvents, events_progress, List.mem_append] at mem
  rcases mem with mem | mem
  · have h : Event.nothingBootstrapped ∈ (reports naming candidates).filter (·.level = .warn) :=
      List.mem_filter.mpr ⟨mem, rfl⟩
    rw [filter_warn_reports] at h
    obtain ⟨candidate, -, hs⟩ := List.mem_filterMap.mp h
    unfold skip? at hs
    split at hs
    · cases hs
    · cases hs
  · cases List.mem_singleton.mp mem

/-- What a building reports, under any naming convention and for any candidates:

* one report for each candidate that is left out or takes the kind of an earlier one, in the
  order of the candidates, and then a summary; the summary counts the objects and the lists
  among the candidates with a kind, those without one and the different kinds; each candidate
  is counted once, and the kinds and the collisions are as many as the candidates with a kind;
* the warnings are that a candidate is left out, each with its name and what is wrong with it;
* the details are the collisions, each with the type of the last earlier candidate of that
  kind and with its own;
* making a mapper reports this, then that nothing was bootstrapped if no candidate has a kind,
  and then the stripes. -/
theorem building_accounts (naming : Naming) (candidates : List Candidate) :
    let events := buildEvents naming candidates
    (∃ mapped objects lists skipped,
      events = reports naming candidates ++ [.bootstrapped mapped objects lists skipped] ∧
      objects = candidates.countP (fun candidate =>
        (candidate.kind? naming).isSome ∧ candidate.category = .object) ∧
      lists = candidates.countP (fun candidate =>
        (candidate.kind? naming).isSome ∧ candidate.category = .list) ∧
      skipped = candidates.countP (fun candidate => candidate.kind? naming = none) ∧
      mapped = (candidates.filterMap (·.kind? naming)).toFinset.card ∧
      objects + lists + skipped = candidates.length ∧
      mapped + events.countP Event.isCollision = objects + lists) ∧
    events.filter (·.level = .warn) = candidates.filterMap (skip? naming) ∧
    events.filter (·.level = .debug) = (candidates.zipIdx.filterMap fun entry =>
      collision? naming (candidates.take entry.2) entry.1) ∧
    (∀ hashing cpus config, .withExtra config.extraStems = naming →
      Mapper.createEvents hashing cpus config candidates =
        events ++ (if ∀ candidate ∈ candidates, candidate.kind? naming = none
          then [.nothingBootstrapped] else []) ++ [.initialized (config.stripes cpus)] ∧
      (.nothingBootstrapped ∈ Mapper.createEvents hashing cpus config candidates ↔
        ∀ candidate ∈ candidates, ∃ error, naming.resolve candidate.name = .error error)) := by
  intro events
  have hevents : events = reports naming candidates ++ [.bootstrapped
      (progress naming candidates).byKind.size (progress naming candidates).objects
      (progress naming candidates).lists (progress naming candidates).skipped] := by
    rw [← events_progress]
    rfl
  have hcounts := accounts_progress naming candidates
  refine ⟨⟨_, _, _, _, hevents, hcounts.objects, hcounts.lists, hcounts.skipped,
    size_progress naming candidates, hcounts.total, ?_⟩, ?_, ?_, ?_⟩
  · rw [hevents, List.countP_append, ← events_progress]
    exact hcounts.balance
  · rw [hevents, List.filter_append, filter_warn_reports]
    exact List.append_nil _
  · rw [hevents, List.filter_append, filter_debug_reports]
    exact List.append_nil _
  · rintro hashing cpus config rfl
    have hstripes : (Mapper.create hashing cpus config candidates).registry.byKind.stripes =
        config.stripes cpus := max_eq_right (config.stripes_pos cpus)
    have hcreate : Mapper.createEvents hashing cpus config candidates =
        events ++ (if ∀ candidate ∈ candidates,
          candidate.kind? (.withExtra config.extraStems) = none
          then [.nothingBootstrapped] else []) ++ [.initialized (config.stripes cpus)] := by
      have hempty : (Mapper.create hashing cpus config candidates).registry.bootstrap.isEmpty ↔ _ :=
        isEmpty_build_iff hashing.order
      rw [Mapper.createEvents, hstripes, if_congr hempty rfl rfl]
    refine ⟨hcreate, ?_⟩
    have hn : .nothingBootstrapped ∉ events := nothingBootstrapped_notMem_buildEvents _ _
    simp only [hcreate, List.mem_append, hn, ← kind?_eq_none_iff]
    by_cases h : ∀ candidate ∈ candidates,
        candidate.kind? (.withExtra config.extraStems) = none <;> simp [h]

/-- Of five candidates two have no kind and one takes the kind of another; the first by itself
leaves the bootstrap layer empty. -/
theorem five_candidates_accounted :
    let candidates : List Candidate := [⟨"not a name", ⟨"Other"⟩, .list⟩,
      ⟨"core::V1Pod", ⟨"First"⟩, .object⟩, ⟨"AppsV1", ⟨"Apps"⟩, .object⟩,
      ⟨"V1PodList", ⟨"Pods"⟩, .list⟩, ⟨"CoreV1Pod", ⟨"Second"⟩, .object⟩]
    Naming.withExtra Config.default.extraStems = .withExtra [] ∧
      Mapper.createEvents .ofText 1 .default candidates =
        [.candidateSkipped "not a name" (.invalidName "not a name"),
          .candidateSkipped "AppsV1" (.emptyKind "AppsV1"),
          .kindCollision ⟨"", "v1", "Pod"⟩ ⟨"First"⟩ ⟨"Second"⟩, .bootstrapped 2 2 1 2,
          .initialized 4] ∧
      .nothingBootstrapped ∈ Mapper.createEvents .ofText 1 .default (candidates.take 1) := by
  intro candidates
  obtain ⟨-, -, -, made⟩ := building_accounts (.withExtra []) candidates
  obtain ⟨-, -, -, nothing⟩ := building_accounts (.withExtra []) (candidates.take 1)
  have hbuild : buildEvents (.withExtra []) candidates =
      [.candidateSkipped "not a name" (.invalidName "not a name"),
        .candidateSkipped "AppsV1" (.emptyKind "AppsV1"),
        .kindCollision ⟨"", "v1", "Pod"⟩ ⟨"First"⟩ ⟨"Second"⟩, .bootstrapped 2 2 1 2] := by
    decide +kernel
  have hsome : ¬ ∀ candidate ∈ candidates, candidate.kind? (.withExtra []) = none := by
    decide +kernel
  have hname : (Naming.withExtra []).resolve (Candidate.name ⟨"not a name", ⟨"Other"⟩, .list⟩) =
      .error (.invalidName "not a name") := by
    decide +kernel
  refine ⟨rfl, (made .ofText 1 .default rfl).1.trans ?_,
    (nothing .ofText 1 .default rfl).2.mpr ?_⟩
  · rw [hbuild, if_neg hsome]
    rfl
  · exact List.forall_mem_singleton.mpr ⟨_, hname⟩

end Bootstrap

end ModelRegistry
