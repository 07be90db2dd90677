import ModelRegistry.Proofs.BootstrapAccounts
import ModelRegistry.Proofs.NameComposition
import ModelRegistry.Proofs.SimpleNames

/-!
# Candidates registered with paths and type arguments

A candidate is named by the last segment of its registered name without the blanks at its ends,
so any path may stand in front of the segment: the bootstrap layer, its counts and its reports
are the same. Type arguments are not cut off. A registered name that ends with them leaves a
name with a `>`, which is no name of a model type, so that candidate is left out and takes no
kind from the types among its arguments. Where a path is put in front of a name, the name is
one that begins with no colon, which would make a path mark with the one before it.
-/

namespace ModelRegistry

/-- How a name is registered: by itself or behind a path. -/
inductive RegisteredAs (name : String) : String → Prop
  /-- By itself. -/
  | bare : RegisteredAs name name
  /-- Behind a path. -/
  | behind (path : String) : RegisteredAs name (path ++ "::" ++ name)

/-- A text that ends in `>`, but for blanks. -/
def EndsInArguments (text : String) : Prop :=
  ∃ front back : String, text = front ++ ">" ++ back ∧ ∀ c ∈ back.toList, TextBlank.isBlank c

/-- A segment is the last segment of what it is registered as. -/
theorem RegisteredAs.lastSegment_eq {name registered : String} (h : RegisteredAs name registered)
    (segment : IsSegment name) : TextCut.lastSegment registered.toList = name.toList := by
  cases h with
  | bare => exact segment.lastSegment_self
  | behind path => exact segment.lastSegment_behind path

namespace Candidate

/-- Two candidates that differ at most in the paths in front of their names. -/
structure SameButPath (one other : Candidate) : Prop where
  /-- They are registered as the same, or register one segment. -/
  registered : one.registeredName = other.registeredName ∨
    ∃ name, IsSegment name ∧ RegisteredAs name one.registeredName ∧
      RegisteredAs name other.registeredName
  /-- They are of one model type. -/
  model : one.model = other.model
  /-- They are of one category. -/
  category : one.category = other.category

variable {candidate one other : Candidate}

/-- A candidate is named by the segment that it registers, without blanks at the ends. -/
theorem name_eq_iff {name core : String} (segment : IsSegment name)
    (registered : RegisteredAs name candidate.registeredName) :
    candidate.name = core ↔ TextBlank.Trimmed name.toList core.toList := by
  rw [Candidate.name, registered.lastSegment_eq segment, ← String.toList_inj,
    String.toList_ofList, TextBlank.trim_eq_iff]

/-- Candidates that differ in paths only have one name. -/
theorem SameButPath.name_eq (h : one.SameButPath other) : one.name = other.name := by
  rcases h.registered with heq | ⟨name, segment, hone, hother⟩
  · rw [Candidate.name, Candidate.name, heq]
  · exact (name_eq_iff segment hone).mpr ((name_eq_iff segment hother).mp rfl)

/-- The name of a candidate whose registered name ends in type arguments has a `>`. -/
theorem mem_name_of_endsInArguments (ends : EndsInArguments candidate.registeredName) :
    '>' ∈ candidate.name.toList := by
  obtain ⟨front, back, hregistered, blank⟩ := ends
  have htail : '>' :: back.toList <:+ candidate.registeredName.toList := by
    refine ⟨front.toList, ?_⟩
    rw [hregistered, String.toList_append, String.toList_append, List.append_assoc]
    rfl
  have haway : ':' ∉ '>' :: back.toList := by
    intro mem
    rcases List.mem_cons.mp mem with h | h
    · cases h
    · exact absurd (blank ':' h) (by decide)
  have hlast : '>' ∈ TextCut.lastSegment candidate.registeredName.toList :=
    (TextCut.suffix_lastSegment htail haway).subset List.mem_cons_self
  rw [Candidate.name, String.toList_ofList]
  exact TextBlank.mem_trim hlast (by decide)

/-- The name of such a candidate is no name of a model type. -/
theorem resolve_of_endsInArguments (ends : EndsInArguments candidate.registeredName)
    (naming : Naming) : naming.resolve candidate.name = .error (.invalidName candidate.name) := by
  have form : ¬ Naming.isName candidate.name.toList := by
    intro form
    have hword := ((Naming.isName_iff _).mp form).chars '>' (mem_name_of_endsInArguments ends)
    exact absurd ((Naming.isNameChar_iff '>').mpr hword) (by decide)
  rw [Naming.resolve_eq]
  exact if_neg form

end Candidate

namespace Bootstrap

variable {naming : Naming} {candidates others : List Candidate} {keep : Candidate → Bool}

/-- Candidates that differ in paths only are taken up alike. -/
theorem progress_of_forall₂ (h : List.Forall₂ Candidate.SameButPath candidates others) :
    progress naming candidates = progress naming others := by
  rw [progress, progress]
  generalize Progress.start = done
  induction h generalizing done with
  | nil => rfl
  | cons same _ ih =>
    rw [List.foldl_cons, List.foldl_cons, Progress.take, same.name_eq, same.model, same.category]
    exact ih _

/-- Taking up a candidate adds its kind to the mapping, if it has one. -/
theorem Progress.byKind_take (naming : Naming) (done : Progress) (candidate : Candidate) :
    (done.take naming candidate).byKind =
      (candidate.kind? naming).elim done.byKind fun kind =>
        done.byKind.insert kind candidate.model := by
  unfold take Candidate.kind?
  cases naming.resolve candidate.name <;> rfl

/-- Leaving out candidates without a kind leaves the bootstrap layer as it is. -/
theorem build_filter (order : KindOrder)
    (without : ∀ candidate ∈ candidates, keep candidate = false → candidate.kind? naming = none) :
    build order naming (candidates.filter keep) = build order naming candidates := by
  suffices h : (progress naming (candidates.filter keep)).byKind =
      (progress naming candidates).byKind by rw [build, build, h]
  induction candidates using List.reverseRecOn with
  | nil => rfl
  | append_singleton rest last ih =>
    obtain ⟨hrest, hlast⟩ := List.forall_mem_append.mp without
    rw [List.filter_append, progress_concat, Progress.byKind_take, ← ih hrest]
    cases hk : keep last with
    | true =>
      rw [List.filter_cons_of_pos hk, List.filter_nil, progress_concat, Progress.byKind_take]
    | false =>
      have hnone := hlast last List.mem_cons_self hk
      rw [List.filter_cons_of_neg (by simp [hk]), List.filter_nil, List.append_nil, hnone]
      rfl

/-- Leaving out what is not counted keeps the count. -/
theorem countP_filter_eq {counted : Candidate → Bool}
    (uncounted : ∀ candidate ∈ candidates, keep candidate = false → counted candidate = false) :
    (candidates.filter keep).countP counted = candidates.countP counted := by
  rw [List.countP_filter]
  refine List.countP_congr fun candidate mem => ?_
  cases hk : keep candidate with
  | true => rw [Bool.and_true]
  | false => rw [uncounted candidate mem hk, Bool.false_and]

/-- Leaving out candidates without a kind changes only the count of those left out. -/
theorem counts_filter
    (without : ∀ candidate ∈ candidates, keep candidate = false → candidate.kind? naming = none) :
    let all := progress naming candidates
    let kept := progress naming (candidates.filter keep)
    kept.objects = all.objects ∧ kept.lists = all.lists ∧
      kept.skipped + candidates.countP (fun candidate => !keep candidate) = all.skipped := by
  intro all kept
  have hall : all.Accounts naming candidates := accounts_progress naming candidates
  have hkept : kept.Accounts naming (candidates.filter keep) := accounts_progress naming _
  have hobjects : kept.objects = all.objects := by
    rw [hall.objects, hkept.objects]
    exact countP_filter_eq fun candidate mem hk => by simp [without candidate mem hk]
  have hlists : kept.lists = all.lists := by
    rw [hall.lists, hkept.lists]
    exact countP_filter_eq fun candidate mem hk => by simp [without candidate mem hk]
  have hlength : candidates.length =
      (candidates.filter keep).length + candidates.countP fun candidate => !keep candidate := by
    rw [← List.countP_eq_length_filter, List.length_eq_countP_add_countP keep]
    simp
  have htotal := hall.total
  have htotal' := hkept.total
  exact ⟨hobjects, hlists, by omega⟩

/-- A building reports each candidate that is left out, with what is wrong with its name. -/
theorem candidateSkipped_mem_buildEvents {candidate : Candidate} {error : NameError}
    (mem : candidate ∈ candidates) (wrong : naming.resolve candidate.name = .error error) :
    .candidateSkipped candidate.name error ∈ buildEvents naming candidates := by
  have hskip : skip? naming candidate = some (.candidateSkipped candidate.name error) := by
    rw [skip?, wrong]
  have hwarn : .candidateSkipped candidate.name error ∈
      (reports naming candidates).filter (·.level = .warn) := by
    rw [filter_warn_reports]
    exact List.mem_filterMap.mpr ⟨candidate, mem, hskip⟩
  rw [buildEvents, events_progress]
  exact List.mem_append_left _ (List.mem_of_mem_filter hwarn)

end Bootstrap

open Bootstrap

/-- Whatever paths and type arguments stand around a name:

* a segment without a `<`, behind a path without one, is the simple name of the whole, also
  with type arguments behind it, which may hold paths and further type arguments;
* no simple name has a `<` or a path mark;
* a candidate registered as a segment behind any path is named by what is left of the segment
  without the blanks at its ends;
* candidates that differ at most in the paths in front of their names make the same bootstrap
  layer, and their building reports the same events, down to the counts at the end;
* a candidate whose registered name ends in `>`, but for blanks, has no name of a model type
  under any convention, and the building reports that it is left out for that reason;
* taking any such candidates away leaves the bootstrap layer as it is, and of the counts only
  that of the candidates left out is lower by as many. -/
theorem names_without_paths_and_arguments :
    (∀ path name arguments : String, IsSegment name → '<' ∉ name.toList → '<' ∉ path.toList →
      (ModelType.mk (path ++ "::" ++ name)).simpleName = name ∧
      (ModelType.mk (path ++ "::" ++ name ++ "<" ++ arguments)).simpleName = name) ∧
    (∀ model : ModelType,
      '<' ∉ model.simpleName.toList ∧ ¬ "::".toList <:+: model.simpleName.toList) ∧
    (∀ path name model category, IsSegment name → ∀ core : String,
      (Candidate.mk (path ++ "::" ++ name) model category).name = core ↔
        TextBlank.Trimmed name.toList core.toList) ∧
    (∀ order naming candidates others, List.Forall₂ Candidate.SameButPath candidates others →
      build order naming candidates = build order naming others ∧
      buildEvents naming candidates = buildEvents naming others) ∧
    (∀ naming candidates, ∀ candidate ∈ candidates, EndsInArguments candidate.registeredName →
      naming.resolve candidate.name = .error (.invalidName candidate.name) ∧
      .candidateSkipped candidate.name (.invalidName candidate.name) ∈
        buildEvents naming candidates) ∧
    (∀ order naming candidates (keep : Candidate → Bool),
      (∀ candidate ∈ candidates, keep candidate = false →
        EndsInArguments candidate.registeredName) →
      build order naming (candidates.filter keep) = build order naming candidates ∧
      ∃ mapped objects lists skipped,
        (buildEvents naming (candidates.filter keep)).getLast? =
          some (.bootstrapped mapped objects lists skipped) ∧
        (buildEvents naming candidates).getLast? = some (.bootstrapped mapped objects lists
          (skipped + candidates.countP fun candidate => !keep candidate))) := by
  refine ⟨?_, ?_, ?_, ?_, ?_, ?_⟩
  · intro path name arguments segment bareName barePath
    have hbare := ModelType.simpleName_behind segment bareName barePath (.inl rfl)
    have hwith := ModelType.simpleName_behind segment bareName barePath
      (.inr ⟨arguments.toList, String.toList_append.symm⟩)
    rw [String.append_empty] at hbare
    rw [← String.append_assoc] at hwith
    exact ⟨hbare, hwith⟩
  · intro model
    exact ⟨model.notMem_simpleName, model.not_infix_simpleName⟩
  · intro path name model category segment core
    exact Candidate.name_eq_iff segment (.behind path)
  · intro order naming candidates others same
    have hprogress : progress naming candidates = progress naming others :=
      progress_of_forall₂ same
    rw [build, build, buildEvents, buildEvents, hprogress]
    exact ⟨rfl, rfl⟩
  · intro naming candidates candidate mem ends
    have hwrong := Candidate.resolve_of_endsInArguments ends naming
    exact ⟨hwrong, candidateSkipped_mem_buildEvents mem hwrong⟩
  · intro order naming candidates keep ends
    have without : ∀ candidate ∈ candidates, keep candidate = false →
        candidate.kind? naming = none := by
      intro candidate mem hk
      exact kind?_eq_none_iff.mpr
        ⟨_, Candidate.resolve_of_endsInArguments (ends candidate mem hk) naming⟩
    have hbuild := build_filter order without
    have hmapped : (progress naming (candidates.filter keep)).byKind.size =
        (progress naming candidates).byKind.size := congrArg Bootstrap.size hbuild
    obtain ⟨hobjects, hlists, hskipped⟩ := counts_filter without
    refine ⟨hbuild, _, _, _, _, getLast?_buildEvents naming _, ?_⟩
    rw [getLast?_buildEvents, hmapped, ← hobjects, ← hlists, ← hskipped]

/-- A wrapped pod is registered after the pod itself, under a name that ends like the pod's. It
is left out, with or without paths, and the pod keeps its kind. -/
theorem wrapped_pod_left_out :
    let pod : ModelType := ⟨"k8s::core::V1Pod"⟩
    let wrapper : Candidate :=
      ⟨"Wrapper<k8s::core" ++ "::" ++ "V1Pod> ", ⟨"Wrapper<k8s::core::V1Pod>"⟩, .object⟩
    let candidates : List Candidate := [⟨"V1Pod", pod, .object⟩, wrapper]
    let others : List Candidate := [⟨"k8s::core" ++ "::" ++ "V1Pod", pod, .object⟩, wrapper]
    (ModelType.mk ("k8s::apps" ++ "::" ++ "V1Deployment" ++ "<" ++ "core::V1Pod<u8>>")).simpleName =
        "V1Deployment" ∧
      wrapper.name = "V1Pod>" ∧
      build .asMapped .builtin candidates = build .asMapped .builtin others ∧
      .candidateSkipped wrapper.name (.invalidName wrapper.name) ∈
        buildEvents .builtin candidates ∧
      build .asMapped .builtin (candidates.filter (· ≠ wrapper)) =
        build .asMapped .builtin candidates ∧
      (build .asMapped .builtin candidates).lookup ⟨"", "v1", "Pod"⟩ = some pod := by
  intro pod wrapper candidates others
  obtain ⟨simple, -, named, same, skipped, fewer⟩ := names_without_paths_and_arguments
  have hdeployment : IsSegment "V1Deployment" := ⟨by decide, by decide⟩
  have hpod : IsSegment "V1Pod" := ⟨by decide, by decide⟩
  have hwrapped : IsSegment "V1Pod> " := ⟨by decide, by decide⟩
  have hblank : ∀ c ∈ [' '], TextBlank.isBlank c := List.forall_mem_singleton.mpr rfl
  have hends : EndsInArguments wrapper.registeredName :=
    ⟨"Wrapper<k8s::core::V1Pod", " ", by decide, hblank⟩
  have hfirst : ∀ c ∈ some 'V', TextBlank.isBlank c = false :=
    fun c h => Option.mem_some.mp h ▸ rfl
  have hlast : ∀ c ∈ some '>', TextBlank.isBlank c = false :=
    fun c h => Option.mem_some.mp h ▸ rfl
  have htrimmed : TextBlank.Trimmed "V1Pod> ".toList "V1Pod>".toList :=
    ⟨⟨[], [' '], rfl, hblank⟩, hfirst, hlast⟩
  have hsame : List.Forall₂ Candidate.SameButPath candidates others :=
    .cons ⟨.inr ⟨"V1Pod", hpod, .bare, .behind _⟩, rfl, rfl⟩ (.cons ⟨.inl rfl, rfl, rfl⟩ .nil)
  have hkeep : ∀ candidate ∈ candidates, decide (candidate ≠ wrapper) = false →
      EndsInArguments candidate.registeredName := by
    intro candidate _ h
    obtain rfl : candidate = wrapper := by simpa using h
    exact hends
  exact ⟨(simple _ _ _ hdeployment (by decide) (by decide)).2,
    (named _ _ _ _ hwrapped _).mpr htrimmed, (same _ _ _ _ hsame).1,
    (skipped .builtin candidates wrapper (by simp [candidates]) hends).2,
    (fewer _ _ _ _ hkeep).1, by decide +kernel⟩

end ModelRegistry
