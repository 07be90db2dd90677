import Mathlib.Data.List.DropRight
import ModelRegistry.Proofs.Reconciliation
import ModelRegistry.Proofs.SessionTurns

/-!
# The changes of a run

Of all that happens in a run only three things change the mapper: a
registration, a discovery answer that is taken up, and a reset. A run is
accounted for by the list of its changes, in order, and the mapper after a run
is the mapper before it with these changes applied. What counts is since the
last reset: the registrations of that time are the history of the registry, and
the last answer of that time is the one that may still be served. Which caller
looks up what, and when, leaves no change.
-/

namespace ModelRegistry

/-- A discovery answer that was taken up. -/
structure Commit where
  /-- The caller whose refresh took it up. -/
  caller : Nat
  /-- The instant at which that refresh obtained the gate. -/
  turn : Instant
  /-- The interval of that refresh. -/
  interval : Duration
  /-- The resources of the answer. -/
  resources : ResourceSet

namespace Commit

/-- The instant at which the answer ceases to be valid. -/
def deadline (commit : Commit) : Instant :=
  RefreshState.deadlineAfter commit.turn commit.interval

/-- The answer with its own deadline. -/
def state (commit : Commit) : RefreshState := ⟨commit.resources, some commit.deadline⟩

end Commit

/-- What a turn changes in the mapper. -/
inductive Change where
  /-- A model type was registered. -/
  | registered (registration : Registration)
  /-- A discovery answer was taken up by some registrations. -/
  | committed (commit : Commit) (registrations : List Registration)
  /-- All registrations and the last discovery answer were dropped. -/
  | dropped

namespace Change

/-- The mapper after a change. -/
def apply (mapper : Mapper) : Change → Mapper
  | registered registration => mapper.register registration
  | committed commit registrations =>
    { mapper with
      registry := mapper.registry.registerAll registrations
      refresh := mapper.refresh.commit commit.turn commit.interval commit.resources }
  | dropped => mapper.reset

/-- Whether everything was dropped. -/
def isDropped : Change → Bool
  | dropped => true
  | _ => false

/-- The registrations that a change makes. -/
def registrations : Change → List Registration
  | registered registration => [registration]
  | committed _ registrations => registrations
  | dropped => []

/-- The discovery answer that a change takes up. -/
def commit? : Change → Option Commit
  | committed commit _ => some commit
  | _ => none

/-- The changes since everything was dropped last. -/
def sinceDropped (changes : List Change) : List Change := changes.rtakeWhile (!·.isDropped)

/-- The registrations since everything was dropped last, in order. -/
def history (changes : List Change) : List Registration :=
  (sinceDropped changes).flatMap registrations

/-- The last discovery answer taken up since everything was dropped last. -/
def lastCommit? (changes : List Change) : Option Commit :=
  (sinceDropped changes).findSomeRev? commit?

/-- Since everything was dropped nothing has changed. -/
theorem sinceDropped_concat_dropped (changes : List Change) :
    sinceDropped (changes ++ [dropped]) = [] :=
  List.rtakeWhile_concat_neg _ _ _ (by decide)

/-- Any other change comes last of those since everything was dropped. -/
theorem sinceDropped_concat {change : Change} (changes : List Change)
    (h : change.isDropped = false) :
    sinceDropped (changes ++ [change]) = sinceDropped changes ++ [change] :=
  List.rtakeWhile_concat_pos _ _ _ (by rw [h]; rfl)

/-- Dropping everything empties the history. -/
theorem history_concat_dropped (changes : List Change) : history (changes ++ [dropped]) = [] := by
  rw [history, sinceDropped_concat_dropped, List.flatMap_nil]

/-- The registrations of any other change come last in the history. -/
theorem history_concat {change : Change} (changes : List Change)
    (h : change.isDropped = false) :
    history (changes ++ [change]) = history changes ++ change.registrations := by
  rw [history, sinceDropped_concat changes h, List.flatMap_append, List.flatMap_singleton]
  rfl

/-- Dropping everything leaves no answer to serve. -/
theorem lastCommit?_concat_dropped (changes : List Change) :
    lastCommit? (changes ++ [dropped]) = none := by
  rw [lastCommit?, sinceDropped_concat_dropped]
  rfl

/-- An answer that is taken up is the last one; no registration takes its place. -/
theorem lastCommit?_concat {change : Change} (changes : List Change)
    (h : change.isDropped = false) :
    lastCommit? (changes ++ [change]) = change.commit?.or (lastCommit? changes) := by
  simp only [lastCommit?, sinceDropped_concat changes h, List.findSomeRev?_eq_findSome?_reverse,
    List.reverse_append, List.reverse_singleton, List.singleton_append, List.findSome?_cons]
  cases change.commit? <;> rfl

end Change

namespace Session

/-- What the turn of a call that can go on changes in a mapper, by the phase of
the call. -/
def changeOf? (mapper : Mapper) (caller : Nat) : Phase → Option Change
  | .starting _ (.query (.register registration)) => some (.registered registration)
  | .starting _ (.query .reset) => some .dropped
  | .fetching turn interval (.ok resources) _ =>
    some (.committed ⟨caller, turn, interval, resources⟩
      (mapper.registry.known resources.toList))
  | _ => none

/-- What a move changes in the mapper. -/
def change? (session : Session) : Move → Option Change
  | .turn caller => (session.ready? caller).bind (changeOf? session.mapper caller)
  | _ => none

/-- What the moves of a run change in the mapper, in order. -/
def changes (admission : Admission) (session : Session) : List Move → List Change
  | [] => []
  | move :: moves =>
    (session.change? move).toList ++ (session.move admission move).changes admission moves

/-- The moves that change a mapper, each with its change. -/
inductive Changed (session : Session) : Move → Change → Prop
  /-- A call registers a model type. -/
  | registered {caller : Nat} {due : Instant} {registration : Registration}
      (ready : session.ready? caller = some (.starting due (.query (.register registration)))) :
      Changed session (.turn caller) (.registered registration)
  /-- A refresh takes up the answer that it waited for. -/
  | committed {caller : Nat} {turn due : Instant} {interval : Duration}
      {resources : ResourceSet}
      (ready : session.ready? caller = some (.fetching turn interval (.ok resources) due)) :
      Changed session (.turn caller) (.committed ⟨caller, turn, interval, resources⟩
        (session.mapper.registry.known resources.toList))
  /-- A call drops everything. -/
  | dropped {caller : Nat} {due : Instant}
      (ready : session.ready? caller = some (.starting due (.query .reset))) :
      Changed session (.turn caller) .dropped

/-- Every change is that of one of these moves. -/
theorem changed_of_change? {session : Session} {move : Move} {change : Change}
    (h : session.change? move = some change) : session.Changed move change := by
  cases move with
  | call delay request => cases h
  | wait nanos => cases h
  | turn caller =>
    obtain ⟨phase, hr, hc⟩ := Option.bind_eq_some_iff.mp h
    cases phase with
    | starting due request =>
      cases request with
      | query query =>
        cases query with
        | register registration =>
          cases hc
          exact .registered hr
        | reset =>
          cases hc
          exact .dropped hr
        | _ => cases hc
      | refresh asked => cases hc
    | queued interval => cases hc
    | fetching turn interval outcome due =>
      cases outcome with
      | error error => cases hc
      | ok resources =>
        cases hc
        exact .committed hr
    | finished time answer => cases hc

/-- A run in two parts. -/
theorem run_append (admission : Admission) (session : Session) (first second : List Move) :
    session.run admission (first ++ second) =
      (session.run admission first).run admission second :=
  List.foldl_append

/-- One more move comes last. -/
theorem run_concat (admission : Admission) (session : Session) (moves : List Move) (move : Move) :
    session.run admission (moves ++ [move]) =
      (session.run admission moves).move admission move :=
  run_append admission session moves [move]

/-- The changes of a run in two parts. -/
theorem changes_append (admission : Admission) (session : Session) (first second : List Move) :
    session.changes admission (first ++ second) =
      session.changes admission first ++
        (session.run admission first).changes admission second := by
  induction first generalizing session with
  | nil => rfl
  | cons head rest ih =>
    rw [List.cons_append, changes, changes, ih, List.append_assoc]
    rfl

/-- The change of one more move comes last. -/
theorem changes_concat (admission : Admission) (session : Session) (moves : List Move)
    (move : Move) :
    session.changes admission (moves ++ [move]) =
      session.changes admission moves ++
        ((session.run admission moves).change? move).toList := by
  rw [changes_append, changes, changes, List.append_nil]

/-- A refresh that holds the gate leaves the mapper as it is in that turn. -/
theorem mapper_enter (session : Session) (caller : Nat) (interval : Duration) :
    (session.enter caller interval).mapper = session.mapper := by
  rw [enter_eq]
  cases session.mapper.refresh.cached? session.now <;> rfl

/-- A refresh that begins leaves the mapper as it is in that turn. -/
theorem mapper_beginRefresh (session : Session) (admission : Admission) (caller : Nat)
    (interval : Duration) :
    (session.beginRefresh admission caller interval).mapper = session.mapper := by
  have ha : (session.arrive caller interval).mapper = session.mapper := by
    unfold arrive
    dsimp only
    split
    · rw [mapper_enter]
    · rfl
  unfold beginRefresh
  split
  · rfl
  · exact ha

/-- A turn changes the mapper by its change and by nothing else. -/
theorem mapper_turn (admission : Admission) (session : Session) (caller : Nat) :
    (session.turn admission caller).mapper =
      (session.change? (.turn caller)).toList.foldl Change.apply session.mapper := by
  cases hr : session.ready? caller with
  | none => simp only [turn_of_not_ready admission hr, change?, hr, Option.bind_none,
      Option.toList_none, List.foldl_nil]
  | some phase =>
    rw [turn_of_ready admission hr, change?, hr, Option.bind_some]
    cases phase with
    | starting due request =>
      cases request with
      | query query => cases query <;> rfl
      | refresh asked => exact mapper_beginRefresh _ _ _ _
    | queued interval => exact mapper_enter _ _ _
    | fetching turn interval outcome due =>
      cases outcome with
      | error error => rfl
      | ok resources =>
        -- The reconciliation is accounted for by the registrations that it makes.
        have hc : session.mapper.commit turn interval resources =
            Change.apply session.mapper (.committed ⟨caller, turn, interval, resources⟩
              (session.mapper.registry.known resources.toList)) := by
          rw [Mapper.commit, Registry.registry_reconcile]
          rfl
        exact hc
    | finished time answer => rfl

/-- A move changes the mapper by its change and by nothing else. -/
theorem mapper_move (admission : Admission) (session : Session) (move : Move) :
    (session.move admission move).mapper =
      (session.change? move).toList.foldl Change.apply session.mapper := by
  cases move with
  | call delay request => rfl
  | wait nanos => rfl
  | turn caller => exact mapper_turn admission session caller

/-- A run changes the mapper by its changes and by nothing else. -/
theorem mapper_run (admission : Admission) (session : Session) (moves : List Move) :
    (session.run admission moves).mapper =
      (session.changes admission moves).foldl Change.apply session.mapper := by
  induction moves generalizing session with
  | nil => rfl
  | cons head rest ih =>
    rw [changes, List.foldl_append, ← mapper_move admission]
    exact ih (session.move admission head)

end Session

end ModelRegistry
