import ModelRegistry.Bootstrap
import ModelRegistry.Proofs.LastEntries
import ModelRegistry.Proofs.TableContents

/-!
# Owners of kinds in the bootstrap layer

Every kind that the name of some candidate names belongs to the last candidate that names
it, whose model type the bootstrap layer gives. Candidates whose names name no kind own
nothing. So a model type is given a kind exactly if one of its candidates owns one. Which
of several owned kinds it is given is up to the order in which the layer goes through its
kinds, of which nothing is assumed.
-/

namespace ModelRegistry

/-- The kind that the name of a candidate names, if it names one. -/
def Candidate.kind? (naming : Naming) (candidate : Candidate) : Option GroupVersionKind :=
  (naming.resolve candidate.name).toOption

namespace Bootstrap

/-- The candidate that owns a kind: the last one whose name names the kind. -/
def owner? (naming : Naming) (candidates : List Candidate) (kind : GroupVersionKind) :
    Option Candidate :=
  candidates.findRev? (·.kind? naming = some kind)

variable {order : KindOrder} {naming : Naming} {candidates : List Candidate}
  {kind : GroupVersionKind} {model : ModelType}

/-- Some candidate owns a kind exactly if the name of some candidate names it. -/
theorem isSome_owner?_iff :
    (owner? naming candidates kind).isSome ↔ kind ∈ candidates.filterMap (·.kind? naming) := by
  rw [owner?, isSome_findRev?_iff]
  simp only [decide_eq_true_eq, List.mem_filterMap]

/-- A candidate owns a kind exactly if its name names the kind and no later one does. -/
theorem owner?_eq_some_iff {owner : Candidate} :
    owner? naming candidates kind = some owner ↔
      owner.kind? naming = some kind ∧ ∃ earlier later,
        candidates = earlier ++ owner :: later ∧
        ∀ other ∈ later, other.kind? naming ≠ some kind := by
  simp only [owner?, findRev?_eq_some_iff_append, decide_eq_true_eq, decide_eq_false_iff_not, ne_eq]

/-- A candidate whose name names a kind owns it unless a later candidate does. -/
theorem owner?_append_cons {candidate : Candidate} (h : candidate.kind? naming = some kind)
    (earlier later : List Candidate) :
    owner? naming (earlier ++ candidate :: later) kind =
      some ((owner? naming later kind).getD candidate) := by
  rw [owner?, owner?, findRev?_append_cons]
  exact decide_eq_true h

/-- No kind belongs to a model type exactly if each kind that one of its candidates names
belongs to a later candidate of another type. -/
theorem forall_owner?_ne_iff :
    (∀ kind owner, owner? naming candidates kind = some owner → owner.model ≠ model) ↔
      ∀ earlier candidate later kind, candidates = earlier ++ candidate :: later →
        candidate.model = model → candidate.kind? naming = some kind →
        ∃ between owner rest, later = between ++ owner :: rest ∧ owner.model ≠ model ∧
          owner.kind? naming = some kind ∧ ∀ other ∈ rest, other.kind? naming ≠ some kind := by
  constructor
  · intro none earlier candidate later kind hc hm hk
    have hown : owner? naming candidates kind =
        some ((owner? naming later kind).getD candidate) := by
      rw [hc, owner?_append_cons hk]
    cases ho : owner? naming later kind with
    | none =>
      rw [ho, Option.getD_none] at hown
      exact absurd hm (none kind candidate hown)
    | some owner =>
      rw [ho, Option.getD_some] at hown
      obtain ⟨hkind, between, rest, hl, hrest⟩ := owner?_eq_some_iff.mp ho
      exact ⟨between, owner, rest, hl, none kind owner hown, hkind, hrest⟩
  · intro taken kind owner ho hm
    obtain ⟨hk, earlier, later, hc, hlast⟩ := owner?_eq_some_iff.mp ho
    -- Whoever took the kind from the owner would come after it.
    obtain ⟨between, taker, rest, hl, -, hkind, -⟩ := taken earlier owner later kind hc hm hk
    have ht : taker ∈ later := by simp [hl]
    exact hlast taker ht hkind

/-- A candidate that is taken up gives its model type to the kind that its name names. -/
theorem Progress.lookup_take (naming : Naming) (done : Progress) (candidate : Candidate)
    (kind : GroupVersionKind) :
    (done.take naming candidate).byKind.lookup kind =
      if candidate.kind? naming = some kind then some candidate.model
      else done.byKind.lookup kind := by
  unfold Progress.take Candidate.kind?
  cases naming.resolve candidate.name with
  | error error => simp [Except.toOption]
  | ok named => simp [Except.toOption, Table.lookup_insert]

/-- One more candidate is taken up last. -/
theorem progress_concat (naming : Naming) (candidates : List Candidate) (last : Candidate) :
    progress naming (candidates ++ [last]) = (progress naming candidates).take naming last := by
  simp only [progress, List.foldl_append, List.foldl_cons, List.foldl_nil]

/-- A kind is mapped to the model type of its owner. -/
theorem lookup_progress (naming : Naming) (candidates : List Candidate)
    (kind : GroupVersionKind) :
    (progress naming candidates).byKind.lookup kind =
      (owner? naming candidates kind).map (·.model) := by
  -- From the end, because the last candidate of a kind owns it.
  induction candidates using List.reverseRecOn with
  | nil => rfl
  | append_singleton rest last ih =>
    rw [progress_concat, Progress.lookup_take, ih, owner?, owner?, findRev?_concat]
    by_cases hk : last.kind? naming = some kind <;> simp [hk]

/-- There are as many kinds as the names of the candidates name different ones. -/
theorem size_progress (naming : Naming) (candidates : List Candidate) :
    (progress naming candidates).byKind.size =
      (candidates.filterMap (·.kind? naming)).toFinset.card := by
  refine Table.size_eq_card fun kind => ?_
  rw [lookup_progress, Option.isSome_map]
  exact isSome_owner?_iff

/-- In whatever order the kinds are gone through, those of a model type are found that are
mapped to it. -/
theorem mem_arrange_iff {bootstrap : Bootstrap} :
    (kind, model) ∈ bootstrap.order.arrange bootstrap.byKind.entries ↔
      bootstrap.byKind.lookup kind = some model := by
  rw [(bootstrap.order.perm bootstrap.byKind.entries).mem_iff, Table.lookup_eq_some_iff]

/-- The kind that a model type is given is mapped to it. -/
theorem lookup_of_kindOf {bootstrap : Bootstrap} (h : bootstrap.kindOf model = some kind) :
    bootstrap.byKind.lookup kind = some model := by
  obtain ⟨⟨found, given⟩, hf, rfl⟩ := Option.map_eq_some_iff.mp h
  have hm : given = model := by simpa using List.find?_some hf
  rw [← hm]
  exact mem_arrange_iff.mp (List.mem_of_find?_eq_some hf)

/-- A model type is given no kind exactly if no kind is mapped to it. -/
theorem kindOf_eq_none_iff {bootstrap : Bootstrap} :
    bootstrap.kindOf model = none ↔ ∀ kind, bootstrap.byKind.lookup kind ≠ some model := by
  have hentries : bootstrap.kindOf model = none ↔
      ∀ entry ∈ bootstrap.order.arrange bootstrap.byKind.entries, entry.2 ≠ model := by
    simp [kindOf]
  rw [hentries]
  constructor
  · intro none kind hl
    exact none (kind, model) (mem_arrange_iff.mpr hl) rfl
  · rintro none ⟨kind, given⟩ he rfl
    exact none kind (mem_arrange_iff.mp he)

/-- A model type is given a kind only if it is that of the owner of the kind. -/
theorem owner?_of_kindOf (h : (build order naming candidates).kindOf model = some kind) :
    ∃ owner, owner? naming candidates kind = some owner ∧ owner.model = model := by
  have hl : (progress naming candidates).byKind.lookup kind = some model := lookup_of_kindOf h
  rw [lookup_progress] at hl
  exact Option.map_eq_some_iff.mp hl

/-- A model type is given no kind exactly if none of its candidates owns one. -/
theorem kindOf_build_eq_none_iff :
    (build order naming candidates).kindOf model = none ↔
      ∀ kind owner, owner? naming candidates kind = some owner → owner.model ≠ model := by
  have hl : ∀ kind, (build order naming candidates).byKind.lookup kind =
      (owner? naming candidates kind).map (·.model) := lookup_progress naming candidates
  simp only [kindOf_eq_none_iff, hl, ne_eq, Option.map_eq_some_iff, not_exists, not_and]

/-- What the bootstrap layer of some candidates answers under a naming convention, in whatever
order it goes through its kinds:

* a kind is looked up with the type of the last candidate whose name names it, or else of
  the last candidate whose name names the same kind in the core group, or else not at all;
* there are as many kinds as the names of the candidates name different ones;
* a kind that a model type is given is looked up with that type, which is the type of the
  last candidate whose name names the kind;
* a model type is given no kind exactly if every kind that the name of one of its candidates
  names belongs to a later candidate of another type. -/
theorem kinds_belong_to_owners (order : KindOrder) (naming : Naming)
    (candidates : List Candidate) :
    let bootstrap := build order naming candidates
    (∀ kind, bootstrap.lookup kind =
      ((owner? naming candidates kind).or
        (owner? naming candidates kind.inCoreGroup)).map (·.model)) ∧
    bootstrap.size = (candidates.filterMap (·.kind? naming)).toFinset.card ∧
    (∀ model kind, bootstrap.kindOf model = some kind →
      bootstrap.lookup kind = some model ∧
      ∃ owner, owner? naming candidates kind = some owner ∧ owner.model = model) ∧
    (∀ model, bootstrap.kindOf model = none ↔
      ∀ earlier candidate later kind, candidates = earlier ++ candidate :: later →
        candidate.model = model → candidate.kind? naming = some kind →
        ∃ between owner rest, later = between ++ owner :: rest ∧ owner.model ≠ model ∧
          owner.kind? naming = some kind ∧ ∀ other ∈ rest, other.kind? naming ≠ some kind) := by
  intro bootstrap
  have hlookup : ∀ kind, bootstrap.lookup kind =
      ((owner? naming candidates kind).or
        (owner? naming candidates kind.inCoreGroup)).map (·.model) := by
    intro kind
    rw [lookup, show bootstrap.byKind = (progress naming candidates).byKind from rfl,
      lookup_progress, lookup_progress, Option.map_or]
  refine ⟨hlookup, size_progress naming candidates, ?_, ?_⟩
  · intro model kind hk
    obtain ⟨owner, ho, hm⟩ := owner?_of_kindOf hk
    refine ⟨?_, owner, ho, hm⟩
    rw [hlookup, ho, Option.some_or, Option.map_some, hm]
  · intro model
    rw [kindOf_build_eq_none_iff, forall_owner?_ne_iff]

/-- A type whose kind is taken over is given no kind, and the taker is looked up for the kind
in every group. -/
theorem kind_taken_over :
    let pod : Candidate := ⟨"core::V1Pod", ⟨"Pod"⟩, .object⟩
    let later : List Candidate := [⟨"not a name", ⟨"Pod"⟩, .list⟩, ⟨"V1Pod", ⟨"Other"⟩, .object⟩]
    let bootstrap := build .asMapped .builtin (pod :: later)
    bootstrap.kindOf ⟨"Other"⟩ = some ⟨"", "v1", "Pod"⟩ ∧
      bootstrap.lookup ⟨"", "v1", "Pod"⟩ = some ⟨"Other"⟩ ∧
      bootstrap.lookup ⟨"apps", "v1", "Pod"⟩ = some ⟨"Other"⟩ ∧
      bootstrap.kindOf ⟨"Pod"⟩ = none ∧
      ∃ between owner rest, later = between ++ owner :: rest ∧ owner.model ≠ ⟨"Pod"⟩ ∧
        owner.kind? .builtin = some ⟨"", "v1", "Pod"⟩ ∧
        ∀ other ∈ rest, other.kind? .builtin ≠ some ⟨"", "v1", "Pod"⟩ := by
  intro pod later bootstrap
  obtain ⟨-, -, given, none⟩ := kinds_belong_to_owners .asMapped .builtin (pod :: later)
  have hk : bootstrap.kindOf ⟨"Other"⟩ = some ⟨"", "v1", "Pod"⟩ := by decide +kernel
  have happs : bootstrap.lookup ⟨"apps", "v1", "Pod"⟩ = some ⟨"Other"⟩ := by decide +kernel
  have hn : bootstrap.kindOf ⟨"Pod"⟩ = Option.none := by decide +kernel
  have hpod : pod.kind? .builtin = some ⟨"", "v1", "Pod"⟩ := by decide +kernel
  exact ⟨hk, (given _ _ hk).1, happs, hn, (none ⟨"Pod"⟩).mp hn [] pod later _ rfl rfl hpod⟩

end Bootstrap

end ModelRegistry
