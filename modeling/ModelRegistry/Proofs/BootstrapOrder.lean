import ModelRegistry.Proofs.SessionLikeness
import ModelRegistry.Proofs.BootstrapOwners

/-!
# The order of the candidates

Candidates come in no particular order, and of several that name one kind the last one
stays. As long as candidates that name one kind are of one type, this cannot be seen: two
neighbours may change places, whether or not they name a kind, the same one or different
ones, and so may all. What is reported is the same but for the order. Only the order in
which a bootstrap layer holds its kinds is left, so a type with several kinds may be given
another of its kinds.
-/

namespace ModelRegistry

/-- Whether a candidate took the kind of an earlier one. -/
def Event.isCollision : Event → Bool
  | kindCollision .. => true
  | _ => false

namespace Bootstrap

/-- Candidates whose names name one kind are of one type. -/
def Uncontested (naming : Naming) (candidates : List Candidate) : Prop :=
  ∀ one ∈ candidates, ∀ other ∈ candidates, (one.kind? naming).isSome →
    one.kind? naming = other.kind? naming → one.model = other.model

instance (naming : Naming) (candidates : List Candidate) :
    Decidable (Uncontested naming candidates) :=
  inferInstanceAs (Decidable (∀ one ∈ candidates, ∀ other ∈ candidates, _ → _ → _))

namespace Progress

variable {naming : Naming} {done first second : Progress} {candidate one other : Candidate}

/-- What taking up a candidate reports while kinds have certain types. -/
def noted (naming : Naming) (typeOf : GroupVersionKind → Option ModelType)
    (candidate : Candidate) : List Event :=
  match naming.resolve candidate.name with
  | .error error => [.candidateSkipped candidate.name error]
  | .ok kind =>
    ((typeOf kind).map fun previous => .kindCollision kind previous candidate.model).toList

/-- Taking up a candidate adds what it reports. -/
theorem events_take (naming : Naming) (done : Progress) (candidate : Candidate) :
    (done.take naming candidate).events =
      done.events ++ noted naming done.byKind.lookup candidate := by
  unfold take noted
  cases naming.resolve candidate.name with
  | error error => rfl
  | ok kind => cases h : done.byKind.lookup kind <;> simp [h]

/-- A candidate with a kind reports a collision if the kind has a type already. -/
theorem noted_of_kind? {kind : GroupVersionKind} (h : candidate.kind? naming = some kind)
    (typeOf : GroupVersionKind → Option ModelType) :
    noted naming typeOf candidate =
      ((typeOf kind).map fun previous => .kindCollision kind previous candidate.model).toList := by
  unfold Candidate.kind? at h
  unfold noted
  cases hr : naming.resolve candidate.name with
  | error error => simp [hr, Except.toOption] at h
  | ok found =>
    rw [hr] at h
    cases h
    rfl

/-- A candidate without a kind reports the same whatever the types of kinds are. -/
theorem noted_of_kind?_none (h : candidate.kind? naming = none)
    (typeOf typeOf' : GroupVersionKind → Option ModelType) :
    noted naming typeOf candidate = noted naming typeOf' candidate := by
  unfold Candidate.kind? at h
  unfold noted
  cases hr : naming.resolve candidate.name with
  | error error => rfl
  | ok found => simp [hr, Except.toOption] at h

/-- What a candidate reports does not depend on a candidate with another kind. -/
theorem noted_take (naming : Naming) (done : Progress)
    (apart : ∀ kind, one.kind? naming = some kind → other.kind? naming ≠ some kind) :
    noted naming (done.take naming other).byKind.lookup one =
      noted naming done.byKind.lookup one := by
  cases hk : one.kind? naming with
  | none => exact noted_of_kind?_none hk _ _
  | some kind =>
    rw [noted_of_kind? hk, noted_of_kind? hk, lookup_take, if_neg (apart kind hk)]

/-- Taking up a candidate counts it by its category, or as left out. -/
theorem counts_take (naming : Naming) (done : Progress) (candidate : Candidate) :
    (done.take naming candidate).objects = done.objects +
        (if (candidate.kind? naming).isSome ∧ candidate.category = .object then 1 else 0) ∧
      (done.take naming candidate).lists = done.lists +
        (if (candidate.kind? naming).isSome ∧ candidate.category = .list then 1 else 0) ∧
      (done.take naming candidate).skipped = done.skipped +
        (if candidate.kind? naming = none then 1 else 0) := by
  unfold take Candidate.kind?
  cases naming.resolve candidate.name with
  | error error => simp [Except.toOption]
  | ok kind => simp [Except.toOption]

/-- Taking up a candidate counts it, however far the building has come. -/
theorem exists_counts_take (naming : Naming) (candidate : Candidate) :
    ∃ objects lists skipped, ∀ done : Progress,
      (done.take naming candidate).objects = done.objects + objects ∧
      (done.take naming candidate).lists = done.lists + lists ∧
      (done.take naming candidate).skipped = done.skipped + skipped :=
  ⟨_, _, _, fun done => counts_take naming done candidate⟩

/-- Two buildings have come equally far, but for the order in which they report. -/
structure Alike (first second : Progress) : Prop where
  /-- Every kind has the same type. -/
  lookup : first.byKind.lookup = second.byKind.lookup
  /-- As many objects were taken up. -/
  objects : first.objects = second.objects
  /-- As many lists were taken up. -/
  lists : first.lists = second.lists
  /-- As many candidates were left out. -/
  skipped : first.skipped = second.skipped
  /-- The same was reported in some order. -/
  events : first.events.Perm second.events

namespace Alike

/-- A building has come as far as itself. -/
theorem refl (done : Progress) : done.Alike done := ⟨rfl, rfl, rfl, rfl, .refl _⟩

/-- Of three buildings the first has come as far as the last. -/
theorem trans {third : Progress} (h : first.Alike second) (g : second.Alike third) :
    first.Alike third :=
  ⟨h.lookup.trans g.lookup, h.objects.trans g.objects, h.lists.trans g.lists,
    h.skipped.trans g.skipped, h.events.trans g.events⟩

/-- Taking up a candidate keeps buildings alike. -/
theorem take (h : first.Alike second) (naming : Naming) (candidate : Candidate) :
    (first.take naming candidate).Alike (second.take naming candidate) := by
  obtain ⟨objects, lists, skipped, counts⟩ := exists_counts_take naming candidate
  obtain ⟨fo, fl, fs⟩ := counts first
  obtain ⟨so, sl, ss⟩ := counts second
  constructor
  · funext kind
    rw [lookup_take, lookup_take, h.lookup]
  · rw [fo, so, h.objects]
  · rw [fl, sl, h.lists]
  · rw [fs, ss, h.skipped]
  · rw [events_take, events_take, h.lookup]
    exact h.events.append_right _

/-- Taking up any number of candidates keeps buildings alike. -/
theorem foldl_take (h : first.Alike second) (naming : Naming) (candidates : List Candidate) :
    (candidates.foldl (Progress.take naming) first).Alike
      (candidates.foldl (Progress.take naming) second) := by
  induction candidates generalizing first second with
  | nil => exact h
  | cons head rest ih =>
    rw [List.foldl_cons, List.foldl_cons]
    exact ih (h.take naming head)

/-- Two candidates may be taken up in either order, unless they are of different types and
name one kind. -/
theorem take_take (done : Progress)
    (agree : (one.kind? naming).isSome → one.kind? naming = other.kind? naming →
      one.model = other.model) :
    ((done.take naming one).take naming other).Alike
      ((done.take naming other).take naming one) := by
  obtain ⟨objects, lists, skipped, counts⟩ := exists_counts_take naming one
  obtain ⟨objects', lists', skipped', counts'⟩ := exists_counts_take naming other
  have hf := counts done
  have hs := counts' done
  have hfs := counts' (done.take naming one)
  have hsf := counts (done.take naming other)
  constructor
  · funext kind
    rw [lookup_take, lookup_take, lookup_take, lookup_take]
    by_cases ho : one.kind? naming = some kind
    · by_cases ht : other.kind? naming = some kind
      · have hm : one.model = other.model := agree (by simp [ho]) (ho.trans ht.symm)
        rw [if_pos ht, if_pos ho, hm]
      · simp only [if_pos ho, if_neg ht]
    · simp only [if_neg ho]
  · omega
  · omega
  · omega
  · rw [events_take, events_take, events_take, events_take]
    by_cases same : (one.kind? naming).isSome ∧ one.kind? naming = other.kind? naming
    · -- Either one comes to what the other would have come to.
      obtain ⟨hsome, he⟩ := same
      obtain ⟨kind, ho⟩ := Option.isSome_iff_exists.mp hsome
      have ht : other.kind? naming = some kind := he.symm.trans ho
      have hm : one.model = other.model := agree hsome he
      rw [noted_of_kind? ho, noted_of_kind? ho, noted_of_kind? ht, noted_of_kind? ht, lookup_take,
        lookup_take, if_pos ho, if_pos ht, hm]
    · have apart : ∀ kind, one.kind? naming = some kind → other.kind? naming ≠ some kind := by
        intro kind ho ht
        exact same ⟨by simp [ho], ho.trans ht.symm⟩
      rw [noted_take naming done apart, noted_take naming done fun kind ht ho => apart kind ho ht,
        List.append_assoc, List.append_assoc]
      exact List.perm_append_comm.append_left _

/-- Candidates of which those that name one kind are of one type may be taken up in any
order. -/
theorem foldl_take_perm {candidates others : List Candidate} (order : candidates.Perm others)
    (uncontested : Uncontested naming candidates) (done : Progress) :
    (candidates.foldl (Progress.take naming) done).Alike
      (others.foldl (Progress.take naming) done) := by
  induction order generalizing done with
  | nil => exact .refl done
  | cons head _ ih =>
    rw [List.foldl_cons, List.foldl_cons]
    refine ih (fun one ho other ht => ?_) (done.take naming head)
    exact uncontested one (List.mem_cons_of_mem _ ho) other (List.mem_cons_of_mem _ ht)
  | swap one other rest =>
    have ho : other ∈ other :: one :: rest := List.mem_cons_self
    have ht : one ∈ other :: one :: rest := List.mem_cons_of_mem _ List.mem_cons_self
    have hs : ((done.take naming other).take naming one).Alike
        ((done.take naming one).take naming other) :=
      take_take done (uncontested other ho one ht)
    rw [List.foldl_cons, List.foldl_cons, List.foldl_cons, List.foldl_cons]
    exact hs.foldl_take naming rest
  | trans toMiddle _ ih ih' =>
    refine (ih uncontested done).trans (ih' (fun one ho other ht => ?_) done)
    exact uncontested one (toMiddle.mem_iff.mpr ho) other (toMiddle.mem_iff.mpr ht)

end Alike

end Progress

variable {naming : Naming} {first second : List Candidate}

/-- Candidates of which those that name one kind are of one type come equally far in any
order. -/
theorem progress_perm (order : first.Perm second) (uncontested : Uncontested naming first) :
    (progress naming first).Alike (progress naming second) :=
  Progress.Alike.foldl_take_perm order uncontested .start

/-- Such candidates make bootstrap layers that are alike, in whatever order either goes through
its kinds. -/
theorem alike_build_perm (walk another : KindOrder) (order : first.Perm second)
    (uncontested : Uncontested naming first) :
    (build walk naming first).Alike (build walk naming first).Akin (build another naming second) :=
  .of_typeOf (progress_perm order uncontested).lookup

/-- A building ends with a report of its counts. -/
theorem getLast?_buildEvents (naming : Naming) (candidates : List Candidate) :
    (buildEvents naming candidates).getLast? =
      some (.bootstrapped (progress naming candidates).byKind.size
        (progress naming candidates).objects (progress naming candidates).lists
        (progress naming candidates).skipped) := by
  rw [buildEvents, List.getLast?_concat]

/-- Such candidates are counted the same. -/
theorem getLast?_buildEvents_perm (order : first.Perm second)
    (uncontested : Uncontested naming first) :
    (buildEvents naming second).getLast? = (buildEvents naming first).getLast? := by
  have h := progress_perm order uncontested
  have hsize : (progress naming first).byKind.size = (progress naming second).byKind.size :=
    (Table.entries_perm (congrFun h.lookup)).length_eq
  rw [getLast?_buildEvents, getLast?_buildEvents, hsize, h.objects, h.lists, h.skipped]

/-- Such candidates report the same events. -/
theorem buildEvents_perm (order : first.Perm second) (uncontested : Uncontested naming first) :
    (buildEvents naming first).Perm (buildEvents naming second) := by
  have hl := getLast?_buildEvents_perm order uncontested
  rw [buildEvents, buildEvents, List.getLast?_concat, List.getLast?_concat,
    Option.some_inj] at hl
  rw [buildEvents, buildEvents, hl]
  exact (progress_perm order uncontested).events.append_right _

/-- Where candidates that name one kind are of one type, the order of the candidates does not
matter, nor does the order in which a bootstrap layer goes through its kinds:

* the bootstrap layers have the same kinds, each of the same type, and as many of them; so a
  look-up of any kind is answered the same, and each type has the same kinds;
* the buildings report the same events but for their order, as many collisions among them,
  and the same counts at the end;
* mappers made from the two orders answer every call in the same way in every run, whatever
  the hashing of either leaves open, whatever the calls are and in whatever order the callers
  have their turns, except that the kind which the bootstrap layer gives a type may be another
  one. -/
theorem order_immaterial (walk another : KindOrder) (order : first.Perm second)
    (uncontested : Uncontested naming first) :
    (build walk naming first).byKind.entries.Perm (build another naming second).byKind.entries ∧
    (∀ kind, (build walk naming first).lookup kind = (build another naming second).lookup kind) ∧
    (build walk naming first).size = (build another naming second).size ∧
    (∀ model kind, (build walk naming first).byKind.lookup kind = some model ↔
      (build another naming second).byKind.lookup kind = some model) ∧
    (buildEvents naming first).Perm (buildEvents naming second) ∧
    (buildEvents naming first).countP Event.isCollision =
      (buildEvents naming second).countP Event.isCollision ∧
    (∃ mapped objects lists skipped,
      (buildEvents naming first).getLast? = some (.bootstrapped mapped objects lists skipped) ∧
      (buildEvents naming second).getLast? =
        some (.bootstrapped mapped objects lists skipped)) ∧
    (∀ (admission : Admission) (hashing another : Hashing) (cpus : Nat) (config : Config)
      (now : Instant) (source : Source) (moves : List Session.Move),
      .withExtra config.extraStems = naming →
      let one := (Session.start now (.create hashing cpus config first) source).run admission moves
      let other := (Session.start now (.create another cpus config second) source).run admission
        moves
      (∀ kind, (one.ask (.typeOfKind kind)).2 = (other.ask (.typeOfKind kind)).2) ∧
      (∀ query, (∀ model, query ≠ .bootstrapKindOf model) →
        (one.ask query).2 = (other.ask query).2) ∧
      (∀ (caller : Nat) time answer, (∀ kind, answer ≠ Answer.bootstrapKind kind) →
        (one.calls[caller]? = some (.finished time answer) ↔
          other.calls[caller]? = some (.finished time answer))) ∧
      one.source = other.source ∧ one.log = other.log) := by
  have halike := alike_build_perm walk another order uncontested
  have hentries : (build walk naming first).byKind.entries.Perm
      (build another naming second).byKind.entries := Table.entries_perm (congrFun halike.typeOf)
  have hevents := buildEvents_perm order uncontested
  refine ⟨hentries, halike.lookup_eq, halike.size_eq, ?_, hevents, hevents.countP_eq _, ?_, ?_⟩
  · intro model kind
    rw [halike.typeOf]
  · have hl := getLast?_buildEvents naming first
    exact ⟨_, _, _, _, hl, (getLast?_buildEvents_perm order uncontested).trans hl⟩
  · rintro admission hashing another cpus config now source moves rfl one other
    have hc : (Mapper.create hashing cpus config first).Alike id _
        (.create another cpus config second) :=
      .create cpus rfl rfl (alike_build_perm hashing.order another.order order uncontested)
    have h : one.Alike id _ other := (Session.Alike.start hc now source).run admission moves
    have asked : ∀ query, (∀ model, query ≠ .bootstrapKindOf model) →
        (one.ask query).2 = (other.ask query).2 := fun _ notKind =>
      h.answer_eq (.inl Function.injective_id) (.inr notKind)
    exact ⟨fun kind => asked (.typeOfKind kind) nofun, asked,
      fun _ _ _ notKind => h.finished_iff (.inl Function.injective_id) (.inr notKind), h.source,
      h.log⟩

/-- Of four candidates two name one kind and one names none; they may come in either
order. -/
theorem four_candidates_reversed :
    let candidates : List Candidate := [⟨"core::V1Pod", ⟨"Pod"⟩, .object⟩,
      ⟨"not a name", ⟨"Other"⟩, .list⟩, ⟨"V1Pod", ⟨"Pod"⟩, .list⟩,
      ⟨"AppsV1Deployment", ⟨"Deployment"⟩, .object⟩]
    let backwards : KindOrder := ⟨List.reverse, List.reverse_perm⟩
    let moves : List Session.Move := [.call 0 (.query .reset), .turn 0]
    let one := (Session.start 0 (.create .ofText 1 .default candidates) .empty).run .checkFirst
      moves
    let other := (Session.start 0
      (.create { Hashing.ofText with order := backwards } 1 .default candidates.reverse)
        .empty).run .checkFirst moves
    candidates.Perm candidates.reverse ∧ Uncontested (.withExtra []) candidates ∧
      (build .asMapped (.withExtra []) candidates).size = 2 ∧
      (build backwards (.withExtra []) candidates.reverse).size = 2 ∧
      (buildEvents (.withExtra []) candidates).countP Event.isCollision = 1 ∧
      (buildEvents (.withExtra []) candidates.reverse).countP Event.isCollision = 1 ∧
      (one.ask (.typeOfKind ⟨"", "v1", "Pod"⟩)).2 = .model (some ⟨"Pod"⟩) ∧
      (other.ask (.typeOfKind ⟨"", "v1", "Pod"⟩)).2 = .model (some ⟨"Pod"⟩) := by
  intro candidates backwards moves one other
  have order : candidates.Perm candidates.reverse := candidates.reverse_perm.symm
  have uncontested : Uncontested (.withExtra []) candidates := by decide +kernel
  have hsize : (build .asMapped (.withExtra []) candidates).size = 2 := by decide +kernel
  have hcount : (buildEvents (.withExtra []) candidates).countP Event.isCollision = 1 := by
    decide +kernel
  have hpod : one.mapper.registry.typeOfKind ⟨"", "v1", "Pod"⟩ = some ⟨"Pod"⟩ := by decide +kernel
  have hone : (one.ask (.typeOfKind ⟨"", "v1", "Pod"⟩)).2 = .model (some ⟨"Pod"⟩) :=
    congrArg Answer.model hpod
  obtain ⟨-, -, size, -, -, collisions, -, sessions⟩ :=
    order_immaterial .asMapped backwards order uncontested
  obtain ⟨kinds, -⟩ := sessions .checkFirst .ofText { Hashing.ofText with order := backwards } 1
    .default 0 .empty moves rfl
  exact ⟨order, uncontested, hsize, size.symm.trans hsize, hcount, collisions.symm.trans hcount,
    hone, (kinds _).symm.trans hone⟩

end Bootstrap

end ModelRegistry
