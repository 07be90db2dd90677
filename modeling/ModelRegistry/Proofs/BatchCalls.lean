import ModelRegistry.Proofs.ClockOrders

/-!
# Batches of calls

A batch of calls is made in a session at rest, and each call goes its own way on
the virtual clock, whichever of the callers are preferred at one instant: it begins
at the very instant for which it was made, since time never passes a call that can
go on, and a refresh at the gate keeps the interval that it asked for. This takes
quiet calls beside the refreshes: none that lets time pass, replaces the responses of
the source or drops everything. Nothing is said about the order in which the refreshes
come to the gate.
-/

namespace ModelRegistry

/-- A call that lets no time pass, leaves the discovery source as it is and drops
nothing. -/
def Query.Quiet : Query → Prop
  | .reset | .script _ | .wait _ => False
  | _ => True

/-- A refresh, or a call answered at once that is quiet. -/
def Request.Quiet : Request → Prop
  | .query asked => asked.Quiet
  | .refresh _ => True

namespace Session

/-- A quiet call changes nothing but the registry. -/
theorem ask_of_quiet (session : Session) {query : Query} (quiet : query.Quiet) :
    ∃ registry, (session.ask query).1 =
      { session with mapper := { session.mapper with registry := registry } } := by
  cases query with
  | reset => exact quiet.elim
  | script responses => exact quiet.elim
  | wait nanos => exact quiet.elim
  | register registration => exact ⟨session.mapper.registry.register registration, rfl⟩
  | _ => exact ⟨session.mapper.registry, rfl⟩

/-- A quiet call that is over has changed nothing but the registry and its own
phase. -/
theorem finish_ask_of_quiet (session : Session) (caller : Nat) {query : Query}
    (quiet : query.Quiet) :
    ∃ registry, (session.ask query).1.finish caller (session.ask query).2 =
      { session with
        mapper := { session.mapper with registry := registry }
        calls := session.calls.set caller (.finished session.now (session.ask query).2) } := by
  obtain ⟨registry, hr⟩ := session.ask_of_quiet quiet
  rw [hr]
  exact ⟨registry, rfl⟩

/-- A session that a run reaches and in which all calls are over. -/
structure AtRest (session : Session) : Prop where
  /-- A run reaches it. -/
  reached : ∃ now mapper source moves,
    session = (start now mapper source).run .checkFirst moves
  /-- All calls are over. -/
  finished : ∀ phase ∈ session.calls, phase.Finished

/-- Before the first call a session is at rest. -/
theorem atRest_start (now : Instant) (mapper : Mapper) (source : Source) :
    (start now mapper source).AtRest := ⟨⟨now, mapper, source, [], rfl⟩, nofun⟩

/-- A session at rest is in order. -/
theorem AtRest.orderly {session : Session} (h : session.AtRest) : session.Orderly := by
  obtain ⟨now, mapper, source, moves, rfl⟩ := h.reached
  exact orderly_run .checkFirst now mapper source moves

/-- What a batch of calls comes to in a run of its callers. -/
def served (session : Session) (batch : List (Nat × Request)) (moves : List Move) : Batch :=
  let after := (session.call .checkFirst batch).run .checkFirst moves
  ⟨after, after.answersSince session.calls.length session.now, after.log.drop session.log.length⟩

/-- The moves of a batch: the calls are made, and then the callers have their turns. -/
def withCalls (batch : List (Nat × Request)) (moves : List Move) : List Move :=
  batch.map (fun entry => .call entry.1 entry.2) ++ moves

/-- A batch is a run of its calls and of the turns of its callers. -/
theorem session_served (session : Session) (batch : List (Nat × Request)) (moves : List Move) :
    (session.served batch moves).session =
      session.run .checkFirst (withCalls batch moves) := by
  rw [withCalls, run_append]
  rfl

/-- The turns by which a batch of calls is served. -/
def servingTurns (session : Session) (batch : List (Nat × Request)) : List Move :=
  driven .checkFirst (3 * batch.length) (session.call .checkFirst batch)

/-- A batch of calls is served in one of these runs. -/
theorem serve_eq_served (session : Session) (batch : List (Nat × Request)) :
    session.serve batch = session.served batch (session.servingTurns batch) := by
  rw [serve, served, Session.batch, drive_eq_run, servingTurns]

/-- The run in which a batch of calls is served is clocked, and prefers the call made first. -/
theorem AtRest.clocked_servingTurns {session : Session} (h : session.AtRest)
    (batch : List (Nat × Request)) :
    Clocked (· ≤ ·) .checkFirst (session.call .checkFirst batch) (session.servingTurns batch) :=
  (h.orderly.call .checkFirst batch).clocked_driven .checkFirst
    (Nat.le_of_eq (turnsLeft_call h.finished .checkFirst batch))

/-- A batch of calls in a session at rest leaves it at rest after any clocked run. -/
theorem AtRest.served {session : Session} (h : session.AtRest) {precedes : Nat → Nat → Prop}
    {batch : List (Nat × Request)} {moves : List Move}
    (clocked : Clocked precedes .checkFirst (session.call .checkFirst batch) moves) :
    (session.served batch moves).session.AtRest where
  reached := by
    obtain ⟨now, mapper, source, before, hs⟩ := h.reached
    refine ⟨now, mapper, source, before ++ withCalls batch moves, ?_⟩
    rw [run_append, ← hs, session_served]
  finished := clocked.finished

/-- The answer at a place of a batch in a session at rest is that of the call at that place. -/
theorem AtRest.answers_getElem? {session : Session} (h : session.AtRest)
    {precedes : Nat → Nat → Prop} {batch : List (Nat × Request)} {moves : List Move}
    (clocked : Clocked precedes .checkFirst (session.call .checkFirst batch) moves) {place : Nat}
    {time : Instant} {answer : Answer}
    (hp : (session.served batch moves).session.calls[session.calls.length + place]? =
      some (.finished time answer)) :
    (session.served batch moves).answers[place]? = some (time - session.now, answer) :=
  answersSince_getElem? (h.served clocked).finished session.now hp

/-- The call at a place of a batch begins at its instant. -/
theorem calls_call_getElem? (session : Session) (admission : Admission)
    (batch : List (Nat × Request)) (place : Nat) :
    (session.call admission batch).calls[session.calls.length + place]? =
      batch[place]?.map fun entry => .starting (session.now + entry.1) entry.2 := by
  rw [call_eq]
  dsimp only
  rw [List.getElem?_append_right (Nat.le_add_right _ place), Nat.add_sub_cancel_left,
    List.getElem?_map]

/-- The calls of a batch that is made in a session at rest are those that are not
over. -/
theorem AtRest.exists_of_starting {session : Session} (h : session.AtRest)
    {admission : Admission} {batch : List (Nat × Request)} {caller : Nat} {phase : Phase}
    (hp : (session.call admission batch).calls[caller]? = some phase) (hn : ¬phase.Finished) :
    ∃ place delay request, caller = session.calls.length + place ∧
      batch[place]? = some (delay, request) ∧
      phase = .starting (session.now + delay) request := by
  rcases Nat.lt_or_ge caller session.calls.length with hl | hl
  · rw [call_eq] at hp
    dsimp only at hp
    rw [List.getElem?_append_left hl] at hp
    exact absurd (h.finished phase (List.mem_of_getElem? hp)) hn
  · obtain ⟨place, rfl⟩ := Nat.exists_eq_add_of_le hl
    rw [calls_call_getElem?] at hp
    obtain ⟨⟨delay, request⟩, he, rfl⟩ := Option.map_eq_some_iff.mp hp
    exact ⟨place, delay, request, rfl, he, rfl⟩

/-- A call is a refresh with an interval, made for an instant. -/
def Refreshes (first : Session) (caller : Nat) (due : Instant) (interval : Duration) : Prop :=
  ∃ asked, first.calls[caller]? = some (.starting due (.refresh asked)) ∧
    asked.getD first.mapper.config.refreshInterval = interval

/-- A call is made for one instant with one interval. -/
theorem Refreshes.unique {first : Session} {caller : Nat} {due other : Instant}
    {interval another : Duration} (h : first.Refreshes caller due interval)
    (g : first.Refreshes caller other another) : due = other ∧ interval = another := by
  obtain ⟨asked, hp, rfl⟩ := h
  obtain ⟨asked', hp', rfl⟩ := g
  rw [hp] at hp'
  cases hp'
  exact ⟨rfl, rfl⟩

/-- A call of a session can have come to a phase at an instant: it begins no later
than it should, and if it is at the gate it is a refresh with the interval that it
asked for, which began. -/
def CameTo (first : Session) (now : Instant) (caller : Nat) : Phase → Prop
  | .starting due request => first.calls[caller]? = some (.starting due request) ∧ now ≤ due
  | .queued interval => ∃ due, first.Refreshes caller due interval ∧ due ≤ now
  | .fetching turn interval _ _ =>
    ∃ due, first.Refreshes caller due interval ∧ due ≤ turn ∧ turn ≤ now
  | .finished _ _ => True

/-- The calls of a session are underway in another. -/
structure Underway (first session : Session) : Prop where
  /-- The other session is in order. -/
  orderly : session.Orderly
  /-- It has the same configuration. -/
  config : session.mapper.config = first.mapper.config
  /-- It is not earlier. -/
  later : first.now ≤ session.now
  /-- Its calls are those of the session, each in a phase to which it came. -/
  came : ∀ caller phase, session.calls[caller]? = some phase →
    first.CameTo session.now caller phase

/-- The calls of a batch are underway when they are made in a session at rest. -/
theorem AtRest.underway {session : Session} (h : session.AtRest) (admission : Admission)
    (batch : List (Nat × Request)) :
    (session.call admission batch).Underway (session.call admission batch) where
  orderly := h.orderly.call admission batch
  config := rfl
  later := Nat.le_refl _
  came caller phase hp := by
    by_cases hf : phase.Finished
    · obtain ⟨time, answer, rfl⟩ := hf
      trivial
    · obtain ⟨place, delay, request, rfl, -, rfl⟩ := h.exists_of_starting hp hf
      refine ⟨hp, ?_⟩
      rw [call_eq]
      exact Nat.le_add_right session.now delay

namespace Underway

variable {first session : Session}

/-- A refresh that obtains the gate has the interval that it asked for, and began. -/
theorem refreshes_of_obtains (h : first.Underway session) {admission : Admission}
    {caller : Nat} {interval : Duration} (obtains : session.Obtains admission caller interval) :
    ∃ due, first.Refreshes caller due interval ∧ due ≤ session.now := by
  cases obtains with
  | atOnce ready unserved free =>
    obtain ⟨hp, due, hd, hn⟩ := ready?_eq_some_iff.mp ready
    cases hd
    exact ⟨_, ⟨_, (h.came caller _ hp).1, by rw [h.config]⟩, hn⟩
  | handed ready => exact h.came caller _ (getElem?_of_ready? ready)

/-- The calls are underway until the next turn. -/
theorem pass (h : first.Underway session) {precedes : Nat → Nat → Prop} {time : Instant}
    {caller : Nat} (chosen : Chosen precedes session time caller) :
    first.Underway { session with now := time } where
  orderly := h.orderly.pass time
  config := h.config
  later := Nat.le_trans h.later chosen.now_le
  came other phase hp := by
    have hc := h.came other phase hp
    have hn := chosen.now_le
    cases phase with
    | starting due request =>
      have hm := chosen.le hp (show session.due? other _ = some due from rfl)
      rw [Nat.max_eq_left hc.2] at hm
      exact ⟨hc.1, hm⟩
    | queued interval =>
      obtain ⟨due, hr, hd⟩ := hc
      exact ⟨due, hr, Nat.le_trans hd hn⟩
    | fetching turn interval outcome due =>
      obtain ⟨begin, hr, hd, ht⟩ := hc
      exact ⟨begin, hr, hd, Nat.le_trans ht hn⟩
    | finished time answer => trivial

/-- No time passes while somebody is in line and nobody waits for discovery. -/
theorem le_now_of_line (h : first.Underway session) {precedes : Nat → Nat → Prop}
    {time : Instant} {caller other : Nat} (chosen : Chosen precedes session time caller)
    (hm : other ∈ session.gate.line)
    (hf : ∀ caller, ¬InPhase Phase.Fetching session.calls caller) : time ≤ session.now := by
  cases hg : session.gate.holder with
  | none =>
    rw [h.orderly.serves.fair.line_eq_nil hg] at hm
    cases hm
  | some holder =>
    rcases (h.orderly.serves.atGate_of_holder hg).atGate with
      ⟨interval, hp⟩ | ⟨turn, interval, outcome, due, hp⟩
    · have hd : session.due? holder (.queued interval) = some 0 := if_pos hg
      have hn := chosen.le hp hd
      rw [Nat.max_eq_right (Nat.zero_le _)] at hn
      exact hn
    · exact absurd ⟨_, hp, trivial⟩ (hf holder)

/-- The calls stay underway when one goes on to a phase to which it can come. -/
theorem set (h : first.Underway session) {after : Session} {caller : Nat} {old new : Phase}
    (orderly : after.Orderly) (config : after.mapper.config = session.mapper.config)
    (now : after.now = session.now) (hp : session.calls[caller]? = some old)
    (calls : after.calls = session.calls.set caller new)
    (hc : first.CameTo session.now caller new) : first.Underway after where
  orderly := orderly
  config := config.trans h.config
  later := now ▸ h.later
  came other phase ho := by
    rw [now]
    rw [calls] at ho
    by_cases he : other = caller
    · subst he
      rw [getElem?_set_of_getElem? hp] at ho
      cases ho
      exact hc
    · rw [List.getElem?_set_ne (Ne.symm he)] at ho
      exact h.came other phase ho

/-- Whatever happens in a turn, the calls stay underway if the call of that turn is
quiet. -/
theorem turned (h : first.Underway session) {admission : Admission} {after : Session}
    {caller : Nat} (quiet : ∀ due query,
      first.calls[caller]? = some (.starting due (.query query)) → query.Quiet)
    (ht : Turned admission session caller after) : first.Underway after := by
  have ho := h.orderly.of_turned ht
  cases ht with
  | idle waits => exact h
  | asked ready =>
    have hp := getElem?_of_ready? ready
    obtain ⟨registry, hr⟩ := session.finish_ask_of_quiet caller (quiet _ _ (h.came caller _ hp).1)
    rw [hr] at ho ⊢
    exact h.set ho rfl rfl hp rfl trivial
  | served ready look cached =>
    exact h.set ho rfl rfl (getElem?_of_ready? ready) rfl trivial
  | queued ready unserved held =>
    obtain ⟨hp, due, hd, hn⟩ := ready?_eq_some_iff.mp ready
    cases hd
    have hc := (h.came caller _ hp).1
    exact h.set ho rfl rfl hp rfl ⟨_, ⟨_, hc, by rw [h.config]⟩, hn⟩
  | took obtains cached =>
    obtain ⟨phase, hp, -⟩ := obtains.getElem?
    exact h.set ho rfl rfl hp rfl trivial
  | discovered obtains cached =>
    obtain ⟨phase, hp, -⟩ := obtains.getElem?
    obtain ⟨due, hr, hd⟩ := h.refreshes_of_obtains obtains
    exact h.set ho rfl rfl hp rfl ⟨due, hr, hd, Nat.le_refl _⟩
  | failed ready => exact h.set ho rfl rfl (getElem?_of_ready? ready) rfl trivial
  | committed ready => exact h.set ho rfl rfl (getElem?_of_ready? ready) rfl trivial

end Underway

end Session

end ModelRegistry
