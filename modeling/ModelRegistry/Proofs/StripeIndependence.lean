import ModelRegistry.Proofs.SessionLikeness

/-!
# Independence of stripes

Two mappers whose configurations differ only in the stripes of their maps cannot
be told apart by their callers, except by asking for the configuration. Sessions
over such mappers are alike, whatever the digests of either mapper are: the maps
stand for the same plain maps, and everything else is the same. Only of several
kinds of a type the bootstrap layers may give different ones, and not even these
if they go through their kinds in one order. What making a mapper reports does
tell the number of stripes; it is no part of a session.
-/

namespace ModelRegistry

/-- A configuration as it looks to a caller that does not look at the stripes. -/
def Config.withoutStripes (config : Config) : Config := { config with stripesPerCpu := 0 }

/-- Bootstrap layers of the same candidates are alike; if they go through their kinds in one
order they give a type the same kind. -/
theorem Bootstrap.alike_build (order another : KindOrder) (naming : Naming)
    (candidates : List Candidate) :
    ∃ told : GroupVersionKind → GroupVersionKind → Prop,
      (build order naming candidates).Alike told (build another naming candidates) ∧
        (order = another → ∀ kind found, told kind found → kind = found) := by
  by_cases same : order = another
  · subst same
    exact ⟨Eq, .refl _, fun _ _ _ => id⟩
  · exact ⟨_, .of_typeOf rfl, fun he => absurd he same⟩

/-- The number of stripes cannot be told from what is answered:

* after any edits, whatever number of stripes was asked for and whatever the
  digests are, a two-way map in stripes has for each key, for each value and for
  its size what two plain maps have after the same edits, and its size is the
  number of different keys written since it was cleared last;
* each of its stripes holds exactly the entries of the plain map whose digests
  select that stripe, and what a digest selects is a stripe of both directions;
* two mappers whose configurations differ only in the stripes for each processor
  answer all calls alike in every run, whatever is left open by the hashing of
  each, at the same times, with the same discovery calls and the same events, but
  for the calls that ask for the configuration, and for the kind of a type in the
  bootstrap layer if the two go through their kinds in different orders. -/
theorem striping_invisible :
    (∀ (κ υ : Type) [DecidableEq κ] [DecidableEq υ] (digests : Digests κ υ) (stripes : Nat)
      (edits : List (Edit κ υ)),
      let map := (StripedMap.empty digests stripes).editAll edits
      let plain := TwoWayMap.empty.editAll edits
      (∀ key, map.lookupKey key = plain.forward.lookup key) ∧
      (∀ value, map.lookupValue value = plain.reverse.lookup value) ∧
      map.size = plain.forward.size ∧
      map.size = (Edit.keysSinceClear edits).toFinset.card ∧
      (∀ stripe key value, (key, value) ∈ map.forward[stripe].entries ↔
        stripe = map.stripeOfKey key ∧ plain.forward.lookup key = some value) ∧
      (∀ stripe value key, (value, key) ∈ map.reverse[stripe].entries ↔
        stripe = map.stripeOfValue value ∧ plain.reverse.lookup value = some key) ∧
      map.stripes = max 1 stripes ∧ 0 < map.stripes ∧
      map.forward.toArray.size = map.stripes ∧ map.reverse.toArray.size = map.stripes ∧
      (∀ key, (map.stripeOfKey key).val = (digests.ofKey key).toNat % map.stripes ∧
        (map.stripeOfKey key).val < map.stripes) ∧
      (∀ value, (map.stripeOfValue value).val = (digests.ofValue value).toNat % map.stripes ∧
        (map.stripeOfValue value).val < map.stripes)) ∧
    (∀ (admission : Admission) (hashing another : Hashing) (cpus : Nat) (config : Config)
      (stripes : UInt64) (candidates : List Candidate) (now : Instant) (source : Source)
      (moves : List Session.Move),
      let first := (Session.start now (.create hashing cpus config candidates) source).run
        admission moves
      let second := (Session.start now
        (.create another cpus { config with stripesPerCpu := stripes } candidates) source).run
          admission moves
      (∀ query, query ≠ .config →
        (hashing.order = another.order ∨ ∀ model, query ≠ .bootstrapKindOf model) →
        (first.ask query).2 = (second.ask query).2) ∧
      (∀ (caller : Nat) time answer, (∀ config, answer ≠ Answer.config config) →
        (hashing.order = another.order ∨ ∀ kind, answer ≠ Answer.bootstrapKind kind) →
        (first.calls[caller]? = some (.finished time answer) ↔
          second.calls[caller]? = some (.finished time answer))) ∧
      first.source = second.source ∧ first.log = second.log) := by
  constructor
  · intro κ υ _ _ digests stripes edits map plain
    have h : map.Represents plain := StripedMap.Represents.empty digests stripes |>.editAll edits
    have hs : map.stripes = max 1 stripes := StripedMap.stripes_editAll _ edits
    have hd : map.digests = digests := StripedMap.digests_editAll _ edits
    have hkey : ∀ key, (map.stripeOfKey key).val = (digests.ofKey key).toNat % map.stripes := by
      intro key
      rw [← hd]
      rfl
    have hvalue : ∀ value,
        (map.stripeOfValue value).val = (digests.ofValue value).toNat % map.stripes := by
      intro value
      rw [← hd]
      rfl
    refine ⟨h.lookupKey, h.lookupValue, h.size, ?_, h.mem_forward_iff, h.mem_reverse_iff, hs,
      map.positive, Vector.size_toArray _, Vector.size_toArray _,
      fun key => ⟨hkey key, (map.stripeOfKey key).isLt⟩,
      fun value => ⟨hvalue value, (map.stripeOfValue value).isLt⟩⟩
    rw [h.size]
    exact Table.size_eq_card (TwoWayMap.isSome_lookup_editAll edits)
  · intro admission hashing another cpus config stripes candidates now source moves first second
    obtain ⟨told, layers, exact⟩ := Bootstrap.alike_build hashing.order another.order
      (.withExtra config.extraStems) candidates
    have hc : (Mapper.create hashing cpus config candidates).Alike Config.withoutStripes told
        (.create another cpus { config with stripesPerCpu := stripes } candidates) :=
      .create cpus rfl rfl layers
    have h : first.Alike Config.withoutStripes told second :=
      (Session.Alike.start hc now source).run admission moves
    exact ⟨fun _ notConfig kinds => h.answer_eq (.inr notConfig) (kinds.imp_left exact),
      fun _ _ _ notConfig kinds => h.finished_iff (.inr notConfig) (kinds.imp_left exact),
      h.source, h.log⟩

/-- A mapper with one stripe, all of whose digests are zero, answers a refresh as one with four
stripes does. -/
theorem one_stripe_answers_as_four :
    let pods : ResourceSet := .ofList [⟨"", "Pod", ["v1"], "pods", true⟩]
    let zeros : Hashing := ⟨.asMapped, ⟨fun _ => 0, fun _ => 0⟩, ⟨fun _ => 0, fun _ => 0⟩⟩
    let moves : List Session.Move := [.call 0 (.refresh none), .turn 0, .wait 5, .turn 0]
    let first := (Session.start 0 (.create .ofText 1 .default []) ⟨[⟨.ok pods, 5⟩], 0⟩).run
      .checkFirst moves
    let second := (Session.start 0 (.create zeros 1 { Config.default with stripesPerCpu := 0 } [])
      ⟨[⟨.ok pods, 5⟩], 0⟩).run .checkFirst moves
    first.calls[0]? = some (.finished 5 (.resources pods)) ∧
      second.calls[0]? = some (.finished 5 (.resources pods)) ∧
      (first.ask .hasEverRefreshed).2 = (second.ask .hasEverRefreshed).2 := by
  intro pods zeros moves first second
  have hf : first.calls[0]? = some (.finished 5 (.resources pods)) := rfl
  obtain ⟨asked, answered, -⟩ :=
    striping_invisible.2 .checkFirst .ofText zeros 1 .default 0 [] 0 ⟨[⟨.ok pods, 5⟩], 0⟩ moves
  exact ⟨hf, (answered 0 5 (.resources pods) nofun (.inl rfl)).mp hf,
    asked .hasEverRefreshed nofun (.inl rfl)⟩

end ModelRegistry
