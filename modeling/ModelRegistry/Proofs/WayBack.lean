import ModelRegistry.Proofs.RegistryHistory

/-!
# The way back from a model type

A model type leads back to the kind of its last registration. That kind need not
lead to the type again: each direction is written on its own, so a kind that is
registered for another type has the other type from then on, while the way back
of the first type stays. Nothing else comes between the two directions. Discovery
registers a kind only for the type that the kind has, so it never parts them. The
way back of collections is not treated here.
-/

namespace ModelRegistry

namespace Change

/-- A change makes a registration of a model type. -/
def Registers (model : ModelType) (change : Change) : Prop :=
  ∃ registration ∈ change.registrations, registration.model = model

/-- A change is a registration of a kind by a caller, not by discovery. -/
def Claims (kind : GroupVersionKind) : Change → Prop
  | registered registration => registration.gvk = kind
  | _ => False

end Change

namespace Registry

/-- Among some changes, which a registry has undergone since it had no
registrations, a model type was registered last under a kind, and the kind leads
to the type exactly if no caller has registered the kind since. -/
def LedBack (registry : Registry) (changes : List Change) (model : ModelType)
    (kind : GroupVersionKind) : Prop :=
  ∃ earlier change later, changes = earlier ++ change :: later ∧
    (change.registrations.findRev? (·.model = model)).map (·.gvk) = some kind ∧
    (∀ other ∈ later, ¬other.Registers model) ∧
    (registry.typeOfKind kind = some model ↔ ∀ other ∈ later, ¬other.Claims kind) ∧
    ∃ found, registry.typeOfKind kind = some found

/-- Every way back from a model type is accounted for by some changes. -/
def Accounted (registry : Registry) (changes : List Change) : Prop :=
  ∀ model kind, registry.kindOf model = some kind → registry.LedBack changes model kind

variable {registry after : Registry} {changes : List Change} {change : Change}
  {model : ModelType} {kind : GroupVersionKind}

/-- A change that registers a type under a kind, which then leads to the type,
accounts for the way back of the type. -/
theorem LedBack.of_registered (changes : List Change)
    (last : (change.registrations.findRev? (·.model = model)).map (·.gvk) = some kind)
    (leads : registry.typeOfKind kind = some model) :
    registry.LedBack (changes ++ [change]) model kind :=
  ⟨changes, change, [], rfl, last, nofun, ⟨fun _ => nofun, fun _ => leads⟩, model, leads⟩

/-- A way back stays accounted for under a change that does not register the type,
if the kind loses the type exactly when a caller registers it. -/
theorem LedBack.append (h : registry.LedBack changes model kind)
    (other : ¬change.Registers model)
    (keeps : after.typeOfKind kind = some model ↔
      registry.typeOfKind kind = some model ∧ ¬change.Claims kind)
    (found : ∃ found, after.typeOfKind kind = some found) :
    after.LedBack (changes ++ [change]) model kind := by
  obtain ⟨earlier, last, later, hc, hl, hn, hi, -⟩ := h
  refine ⟨earlier, last, later ++ [change], ?_, hl, ?_, ?_, found⟩
  · rw [hc, List.append_assoc, List.cons_append]
  · rw [List.forall_mem_append]
    exact ⟨hn, List.forall_mem_singleton.mpr other⟩
  · rw [keeps, hi, List.forall_mem_append, List.forall_mem_singleton]

/-- A registration by a caller leaves every way back accounted for. -/
theorem Accounted.register (h : registry.Accounted changes) (registration : Registration) :
    (registry.register registration).Accounted (changes ++ [.registered registration]) := by
  intro model kind hk
  rw [kindOf_register] at hk
  by_cases hm : registration.model = model
  · rw [if_pos hm] at hk
    have hg : registration.gvk = kind := Option.some.inj hk
    refine .of_registered changes ?_ ?_
    · simp [Change.registrations, hm, hg]
    · rw [typeOfKind_register, if_pos hg, hm]
  · rw [if_neg hm] at hk
    have hb := h model kind hk
    refine hb.append ?_ ?_ ?_
    · rintro ⟨other, ho, he⟩
      exact hm (List.mem_singleton.mp ho ▸ he)
    · rw [typeOfKind_register]
      by_cases hg : registration.gvk = kind
      · simp [Change.Claims, hg, hm]
      · simp [Change.Claims, hg]
    · rw [typeOfKind_register]
      obtain ⟨-, -, -, -, -, -, -, hf⟩ := hb
      split
      · exact ⟨_, rfl⟩
      · exact hf

/-- Taking up a discovery answer leaves every way back accounted for: it gives no
kind another type. -/
theorem Accounted.reconcile (h : registry.Accounted changes) (commit : Commit)
    (resources : List ApiResource) :
    (registry.registerAll (registry.known resources)).Accounted
      (changes ++ [.committed commit (registry.known resources)]) := by
  intro model kind hk
  have ht : (registry.registerAll (registry.known resources)).typeOfKind = registry.typeOfKind :=
    typeOfKind_registerAll_known registry fun _ => typeOfKind_of_mem_known
  rw [kindOf_registerAll] at hk
  cases hf : (registry.known resources).findRev? (·.model = model) with
  | some last =>
    rw [hf] at hk
    have hg : last.gvk = kind := Option.some.inj hk
    obtain ⟨hp, earlier, later, hc, -⟩ := findRev?_eq_some_iff_append.mp hf
    have hm : last.model = model := of_decide_eq_true hp
    have hr : last ∈ registry.known resources := by simp [hc]
    refine .of_registered changes ?_ ?_
    · rw [Change.registrations, hf, Option.map_some, hg]
    · rw [ht, ← hg, typeOfKind_of_mem_known hr, hm]
  | none =>
    rw [hf] at hk
    have hb := h model kind hk
    refine hb.append ?_ ?_ ?_
    · rintro ⟨other, ho, he⟩
      exact of_decide_eq_false (findRev?_eq_none_iff.mp hf other ho) he
    · rw [ht]
      exact (and_iff_left id).symm
    · rw [ht]
      obtain ⟨-, -, -, -, -, -, -, hf⟩ := hb
      exact hf

end Registry

namespace Session

/-- After every run every way back is accounted for by the changes since the last
reset. -/
theorem accounted_run (admission : Admission) (hashing : Hashing) (cpus : Nat) (config : Config)
    (candidates : List Candidate) (now : Instant) (source : Source) (moves : List Move) :
    let start := Session.start now (.create hashing cpus config candidates) source
    (start.run admission moves).mapper.registry.Accounted
      (Change.sinceDropped (start.changes admission moves)) := by
  intro start
  induction moves using List.reverseRecOn with
  | nil =>
    intro model kind hk
    rw [show (start.run admission []).mapper.registry.kindOf model = none from
      Registry.kindOf_ofBootstrap _ _ _ _ model] at hk
    cases hk
  | append_singleton rest last ih =>
    rw [run_concat, mapper_move, changes_concat]
    cases hc : (start.run admission rest).change? last with
    | none =>
      rw [Option.toList_none, List.append_nil]
      exact ih
    | some change =>
      rw [Option.toList_some]
      cases changed_of_change? hc with
      | registered ready =>
        rw [Change.sinceDropped_concat _ rfl]
        exact ih.register _
      | committed ready =>
        rw [Change.sinceDropped_concat _ rfl]
        exact ih.reconcile _ _
      | dropped ready =>
        intro model kind hk
        have hn : (start.run admission rest).mapper.registry.reset.kindOf model = none :=
          StripedMap.lookupValue_clear _ _
        exact absurd (hn.symm.trans hk) nofun

/-- The way back of a model type need not lead to the type again: a kind that is
registered for a second type keeps the second one, while the first type keeps the
kind. -/
theorem way_back_broken :
    ¬∀ (admission : Admission) (hashing : Hashing) (cpus : Nat) (config : Config)
      (candidates : List Candidate) (now : Instant) (source : Source) (moves : List Move)
      (model : ModelType) (kind : GroupVersionKind),
      let session :=
        (Session.start now (.create hashing cpus config candidates) source).run admission moves
      session.ask (.kindOf model) = (session, .kind (some kind)) →
        session.ask (.typeOfKind kind) = (session, .model (some model)) := by
  intro law
  let pod : Registration := ⟨"", "v1", "Pod", "pods", none, ⟨"Pod"⟩⟩
  let other : Registration := ⟨"", "v1", "Pod", "pods", none, ⟨"Other"⟩⟩
  let session := (Session.start 0 (.create .ofText 1 .default []) .empty).run .checkFirst
    [.call 0 (.query (.register pod)), .turn 0, .call 0 (.query (.register other)), .turn 1]
  have hr : session.mapper.registry =
      ((Mapper.create .ofText 1 .default []).registry.register pod).register other := rfl
  have hk : session.mapper.registry.kindOf pod.model = some pod.gvk := by
    rw [hr, Registry.kindOf_register, if_neg (by decide), Registry.kindOf_register, if_pos rfl]
  have ht : session.mapper.registry.typeOfKind pod.gvk = some other.model := by
    rw [hr, Registry.typeOfKind_register, if_pos (show other.gvk = pod.gvk from rfl)]
  have hl : session.ask (.typeOfKind pod.gvk) = (session, .model (some pod.model)) :=
    law .checkFirst .ofText 1 .default [] 0 .empty _ pod.model pod.gvk (by rw [ask, hk])
  rw [ask, ht] at hl
  injection hl with _ hm
  have he : other.model = pod.model := Option.some.inj (Answer.model.inj hm)
  exact absurd he (by decide)

/-- After any run from a mapper that was just made, whatever the configuration,
the candidates and the order in which the callers had their turns, the kind to
which a model type leads back is that of the last registration of the type since
the last reset; the kind leads to some type; and it leads to that very type
exactly if no caller has registered the kind since, whatever discovery has taken
up in between. -/
theorem way_back (admission : Admission) (hashing : Hashing) (cpus : Nat) (config : Config)
    (candidates : List Candidate) (now : Instant) (source : Source) (moves : List Move) :
    let start := Session.start now (.create hashing cpus config candidates) source
    let session := start.run admission moves
    ∀ model kind, session.ask (.kindOf model) = (session, .kind (some kind)) →
      ∃ earlier change later,
        Change.sinceDropped (start.changes admission moves) = earlier ++ change :: later ∧
        (change.registrations.findRev? (·.model = model)).map (·.gvk) = some kind ∧
        (∀ other ∈ later, ¬other.Registers model) ∧
        (session.ask (.typeOfKind kind) = (session, .model (some model)) ↔
          ∀ other ∈ later, ¬other.Claims kind) ∧
        ∃ found, session.ask (.typeOfKind kind) = (session, .model (some found)) := by
  intro start session model kind hk
  have hr : session.mapper.registry.kindOf model = some kind := by
    injection hk with _ ha
    injection ha
  obtain ⟨earlier, change, later, hc, hl, hn, hi, found, hf⟩ :=
    accounted_run admission hashing cpus config candidates now source moves model kind hr
  have hask : ∀ other, session.ask (.typeOfKind kind) = (session, .model (some other)) ↔
      session.mapper.registry.typeOfKind kind = some other := by
    intro other
    simp only [ask, Prod.mk.injEq, true_and, Answer.model.injEq]
  exact ⟨earlier, change, later, hc, hl, hn, (hask model).trans hi, found, (hask found).mpr hf⟩

/-- A type that a caller registers, and that discovery registers again under the
same kind, is led back to. -/
theorem way_back_after_discovery :
    let pods : ResourceSet := .ofList [⟨"", "Pod", ["v1"], "pods", true⟩]
    let pod : Registration := ⟨"", "v1", "Pod", "pods", none, ⟨"Pod"⟩⟩
    let start := Session.start 0 (.create .ofText 1 .default []) ⟨[⟨.ok pods, 5⟩], 0⟩
    let moves : List Move := [.call 0 (.query (.register pod)), .turn 0, .call 0 (.refresh none),
      .turn 1, .wait 5, .turn 1]
    let session := start.run .checkFirst moves
    session.ask (.kindOf pod.model) = (session, .kind (some pod.gvk)) ∧
      ∃ earlier change later,
        Change.sinceDropped (start.changes .checkFirst moves) = earlier ++ change :: later ∧
        (change.registrations.findRev? (·.model = pod.model)).map (·.gvk) = some pod.gvk ∧
        (∀ other ∈ later, ¬other.Registers pod.model) ∧
        (session.ask (.typeOfKind pod.gvk) = (session, .model (some pod.model)) ↔
          ∀ other ∈ later, ¬other.Claims pod.gvk) ∧
        ∃ found, session.ask (.typeOfKind pod.gvk) = (session, .model (some found)) := by
  intro pods pod start moves session
  have hr : session.mapper.registry = (((Mapper.create .ofText 1 .default []).registry.register
      pod).reconcile pods.toList).registry := rfl
  have hn : ((Mapper.create .ofText 1 .default []).registry.register pod).known pods.toList =
      [{ pod with namespaced := some true }] := by
    have ht : ((Mapper.create .ofText 1 .default []).registry.register pod).typeOfKind pod.gvk =
        some pod.model := by
      rw [Registry.typeOfKind_register, if_pos rfl]
    have hs : Registry.servedVersions pods.toList =
      [(⟨"", "Pod", ["v1"], "pods", true⟩, "v1")] := rfl
    rw [Registry.known, hs]
    exact List.filterMap_cons_some (congrArg (Option.map _) ht)
  have hk : session.mapper.registry.kindOf pod.model = some pod.gvk := by
    rw [hr, Registry.registry_reconcile, hn, Registry.kindOf_registerAll]
    rfl
  have ha : session.ask (.kindOf pod.model) = (session, .kind (some pod.gvk)) := by rw [ask, hk]
  exact ⟨ha, way_back .checkFirst .ofText 1 .default [] 0 _ moves pod.model pod.gvk ha⟩

end Session

end ModelRegistry
