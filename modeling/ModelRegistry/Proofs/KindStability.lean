import ModelRegistry.Proofs.SessionChanges

/-!
# Stability of kinds

Discovery never changes the type of a kind. That is so for one reconciliation,
whatever it reconciles with, so it is so for every turn of every refresh, and a
kind changes its type only by being registered or by a reset. The collections,
the way back and the flags do change with discovery; they are left out here.
-/

namespace ModelRegistry

/-- A change may give a kind another type. -/
def Change.Touches (kind : GroupVersionKind) : Change → Prop
  | registered registration => registration.gvk = kind
  | committed _ _ => False
  | dropped => True

namespace Session

variable {admission : Admission} {session : Session} {kind : GroupVersionKind}

/-- Only a call answered at once can give a kind another type, and no turn of a
refresh does. -/
theorem Changed.ready?_of_touches {move : Move} {change : Change}
    (h : session.Changed move change) (touches : change.Touches kind) :
    ∃ caller due query, move = .turn caller ∧
      session.ready? caller = some (.starting due (.query query)) := by
  cases h with
  | registered ready => exact ⟨_, _, _, rfl, ready⟩
  | committed ready => exact touches.elim
  | dropped ready => exact ⟨_, _, _, rfl, ready⟩

/-- A move whose change does not touch a kind leaves the type of the kind as it
is, also when it takes up a discovery answer. -/
theorem typeOfKind_move (move : Move)
    (h : ∀ change, session.change? move = some change → ¬change.Touches kind) :
    (session.move admission move).mapper.registry.typeOfKind kind =
      session.mapper.registry.typeOfKind kind := by
  rw [mapper_move]
  cases hc : session.change? move with
  | none => rfl
  | some change =>
    have hn := h change hc
    cases changed_of_change? hc with
    | registered ready => exact (Registry.typeOfKind_register _ _ kind).trans (if_neg hn)
    | committed ready =>
      -- What it registers are types that the kinds have now, not when it called.
      exact congrFun (Registry.typeOfKind_registerAll_known session.mapper.registry
        fun _ => Registry.typeOfKind_of_mem_known) kind
    | dropped ready => exact absurd trivial hn

/-- A run whose changes do not touch a kind leaves the type of the kind as it is. -/
theorem typeOfKind_run (moves : List Move)
    (h : ∀ change ∈ session.changes admission moves, ¬change.Touches kind) :
    (session.run admission moves).mapper.registry.typeOfKind kind =
      session.mapper.registry.typeOfKind kind := by
  induction moves generalizing session with
  | nil => rfl
  | cons head rest ih =>
    have hhead : ∀ change, session.change? head = some change → ¬change.Touches kind := by
      intro change hc
      refine h change (List.mem_append_left _ ?_)
      rw [hc]
      exact List.mem_singleton_self change
    have hrest : ((session.move admission head).run admission rest).mapper.registry.typeOfKind
        kind = (session.move admission head).mapper.registry.typeOfKind kind :=
      ih fun change hc => h change (List.mem_append_right _ hc)
    exact hrest.trans (typeOfKind_move head hhead)

/-- Discovery gives no kind another type:

* a reconciliation leaves every kind with the type that it had, also with none,
  in whatever order it takes up whatever resources;
* so does every turn of a call that is not answered at once, so every turn of a
  refresh, in every session;
* a run gives a kind another type only by registering that kind or by a reset,
  whatever refreshes go on in it;
* so a type that is registered for a kind, while discovery is under way or not,
  is found under that kind for as long as the kind is not registered again and
  nothing is dropped, whatever refreshes come to their end. -/
theorem discovery_keeps_kinds (admission : Admission) :
    (∀ (registry : Registry) (resources : List ApiResource) (kind : GroupVersionKind),
      (registry.reconcile resources).registry.typeOfKind kind = registry.typeOfKind kind) ∧
    (∀ (session : Session) (caller : Nat) (kind : GroupVersionKind),
      (∀ due query, session.calls[caller]? ≠ some (.starting due (.query query))) →
      (session.turn admission caller).mapper.registry.typeOfKind kind =
        session.mapper.registry.typeOfKind kind) ∧
    (∀ (session : Session) (moves : List Move) (kind : GroupVersionKind),
      (∀ change ∈ session.changes admission moves, ¬change.Touches kind) →
      (session.run admission moves).mapper.registry.typeOfKind kind =
        session.mapper.registry.typeOfKind kind) ∧
    (∀ (session : Session) (caller : Nat) (due : Instant) (registration : Registration)
      (later : List Move),
      session.ready? caller = some (.starting due (.query (.register registration))) →
      (∀ change ∈ (session.turn admission caller).changes admission later,
        ¬change.Touches registration.gvk) →
      ((session.turn admission caller).run admission later).ask
          (.typeOfKind registration.gvk) =
        ((session.turn admission caller).run admission later,
          .model (some registration.model))) := by
  refine ⟨fun registry resources kind =>
    congrFun (registry.typeOfKind_reconcile resources) kind, ?_, fun session moves kind =>
    typeOfKind_run moves, ?_⟩
  · intro session caller kind hq
    refine typeOfKind_move (.turn caller) fun change hc touches => ?_
    obtain ⟨other, due, query, ht, hr⟩ := (changed_of_change? hc).ready?_of_touches touches
    cases ht
    exact hq due query (getElem?_of_ready? hr)
  · intro session caller due registration later ready keeps
    have hr : (session.turn admission caller).mapper.registry.typeOfKind registration.gvk =
        some registration.model := by
      rw [turn_of_ready admission ready]
      exact (Registry.typeOfKind_register _ registration _).trans (if_pos rfl)
    rw [ask, typeOfKind_run later keeps, hr]

/-- A type that is registered while discovery is under way outlives the answer,
also when that answer has a resource of the same kind. -/
theorem registered_during_discovery :
    let pods : ResourceSet := .ofList [⟨"", "Pod", ["v1"], "pods", true⟩]
    let pod : Registration := ⟨"", "v1", "Pod", "pods", none, ⟨"Pod"⟩⟩
    let waiting := (Session.start 0 (.create .ofText 1 .default []) ⟨[⟨.ok pods, 5⟩], 0⟩).run
      .checkFirst [.call 0 (.refresh none), .turn 0, .call 0 (.query (.register pod))]
    let settled := (waiting.turn .checkFirst 1).run .checkFirst [.wait 5, .turn 0]
    settled.calls[0]? = some (.finished 5 (.resources pods)) ∧
      settled.ask (.typeOfKind pod.gvk) = (settled, .model (some pod.model)) := by
  intro pods pod waiting settled
  obtain ⟨-, -, -, kept⟩ := discovery_keeps_kinds .checkFirst
  have hr : waiting.ready? 1 = some (.starting 0 (.query (.register pod))) := rfl
  have hc : ∀ change ∈ (waiting.turn .checkFirst 1).changes .checkFirst [.wait 5, .turn 0],
      ¬change.Touches pod.gvk := List.forall_mem_singleton.mpr id
  exact ⟨rfl, kept waiting 1 0 pod _ hr hc⟩

end Session

end ModelRegistry
