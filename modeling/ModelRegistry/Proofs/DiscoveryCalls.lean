import ModelRegistry.Proofs.SessionChanges
import ModelRegistry.Proofs.SessionOrder

/-!
# Discovery calls

A move calls discovery when the source counts one call more. That happens exactly
in the turns in which a refresh obtains the gate while the stored answer is due,
so no call makes more than one, and whoever waits for a response in some session
of a run can be traced to the turn in which it asked for it. A response may take
any time; nothing is said about how long.
-/

namespace ModelRegistry.Session

variable {admission : Admission} {session : Session}

/-- A move calls discovery: the source counts more calls afterwards. -/
def Discovers (admission : Admission) (session : Session) (move : Move) : Prop :=
  session.source.calls < (session.move admission move).source.calls

/-- The number of discovery calls that turns of a caller make in a run. -/
def discoveries (admission : Admission) (caller : Nat) : Session → List Move → Nat
  | _, [] => 0
  | session, .turn other :: moves =>
    (if other = caller then
      (session.turn admission other).source.calls - session.source.calls else 0) +
      discoveries admission caller (session.turn admission other) moves
  | session, move :: moves => discoveries admission caller (session.move admission move) moves

/-- In a run a refresh with an interval obtained the gate at an instant and
called discovery, which came to an outcome. -/
def CalledDiscovery (admission : Admission) (first : Session) (moves : List Move) (caller : Nat)
    (turn : Instant) (interval : Duration) (outcome : DiscoveryOutcome) : Prop :=
  ∃ before after, moves = before ++ .turn caller :: after ∧
    (first.run admission before).now = turn ∧
    (first.run admission before).Obtains admission caller interval ∧
    (first.run admission before).Discovers admission (.turn caller) ∧
    (first.run admission before).source.response.outcome = outcome

/-- A call in a longer run. -/
theorem CalledDiscovery.append {first : Session} {moves : List Move} {caller : Nat}
    {turn : Instant} {interval : Duration} {outcome : DiscoveryOutcome}
    (h : CalledDiscovery admission first moves caller turn interval outcome)
    (more : List Move) :
    CalledDiscovery admission first (moves ++ more) caller turn interval outcome := by
  obtain ⟨before, after, rfl, h⟩ := h
  refine ⟨before, after ++ more, ?_, h⟩
  rw [List.append_assoc, List.cons_append]

/-- A refresh that obtains the gate calls discovery exactly when the stored
answer is due. -/
theorem Obtains.discovers_iff {caller : Nat} {interval : Duration}
    (obtains : session.Obtains admission caller interval) :
    session.Discovers admission (.turn caller) ↔ session.mapper.refresh.Due session.now := by
  rw [Discovers, move, turn_of_obtains obtains, enter_eq, ← RefreshState.cached?_eq_none_iff]
  dsimp only
  cases hc : session.mapper.refresh.cached? session.now with
  | none => exact ⟨fun _ => rfl, fun _ => Nat.lt_succ_self _⟩
  | some resources => exact ⟨fun h => absurd h (Nat.lt_irrefl _), nofun⟩

/-- A refresh that obtains the gate is in a phase from which it goes on. -/
theorem Obtains.getElem? {caller : Nat} {interval : Duration}
    (obtains : session.Obtains admission caller interval) :
    ∃ phase, session.calls[caller]? = some phase ∧ ¬phase.Spent := by
  cases obtains with
  | atOnce ready unserved free => exact ⟨_, getElem?_of_ready? ready, id⟩
  | handed ready => exact ⟨_, getElem?_of_ready? ready, id⟩

/-- A refresh that obtains the gate while the stored answer is due waits for the
response that the source gives at that instant. -/
theorem Obtains.fetching {caller : Nat} {interval : Duration}
    (obtains : session.Obtains admission caller interval)
    (due : session.mapper.refresh.Due session.now) :
    (session.turn admission caller).calls[caller]? =
      some (.fetching session.now interval session.source.response.outcome
        (session.now + session.source.response.latency)) := by
  obtain ⟨phase, hp, -⟩ := obtains.getElem?
  rw [turn_of_obtains obtains, enter_eq]
  dsimp only
  rw [RefreshState.cached?_eq_none_iff.mpr due]
  exact getElem?_set_of_getElem? hp _

/-- Whatever happens in a turn calls discovery at most once, and only a refresh
that obtains the gate while the stored answer is due does. -/
theorem Turned.source_calls {caller : Nat} {after : Session}
    (h : Turned admission session caller after) :
    after.source.calls = session.source.calls ∨
      (after.source.calls = session.source.calls + 1 ∧
        (∃ interval, session.Obtains admission caller interval) ∧
        session.mapper.refresh.Due session.now) := by
  cases h with
  | asked ready => exact .inl (source_calls_ask session _)
  | discovered obtains cached =>
    exact .inr ⟨rfl, ⟨_, obtains⟩, RefreshState.cached?_eq_none_iff.mp cached⟩
  | _ => exact .inl rfl

/-- The moves that call discovery are the turns in which a refresh obtains the
gate while the stored answer is due. -/
theorem Orderly.discovers_iff (h : session.Orderly) {move : Move} :
    session.Discovers admission move ↔
      ∃ caller interval, move = .turn caller ∧
        session.Obtains admission caller interval ∧
        session.mapper.refresh.Due session.now := by
  constructor
  · intro hd
    cases move with
    | call delay request => exact absurd hd (Nat.lt_irrefl _)
    | wait nanos => exact absurd hd (Nat.lt_irrefl _)
    | turn caller =>
      rcases (h.turned admission caller).source_calls with hs | ⟨-, ⟨interval, ho⟩, due⟩
      · rw [Discovers, Session.move, hs] at hd
        exact absurd hd (Nat.lt_irrefl _)
      · exact ⟨caller, interval, rfl, ho, due⟩
  · rintro ⟨caller, interval, rfl, ho, due⟩
    exact ho.discovers_iff.mpr due

/-- In a turn a call does nothing, or it comes to its end, queues for the gate,
or begins to wait for discovery; no other call changes. -/
theorem Turned.calls_eq {caller : Nat} {after : Session}
    (h : Turned admission session caller after) :
    after = session ∨
      ∃ old new, session.calls[caller]? = some old ∧
        after.calls = session.calls.set caller new ∧
        ((∃ time answer, new = .finished time answer) ∨
          (∃ interval, new = .queued interval ∧ ¬old.Spent) ∨
          ∃ interval, session.Obtains admission caller interval ∧
            session.mapper.refresh.Due session.now ∧
            new = .fetching session.now interval session.source.response.outcome
              (session.now + session.source.response.latency)) := by
  cases h with
  | idle waits => exact .inl rfl
  | asked ready =>
    exact .inr ⟨_, _, getElem?_of_ready? ready, calls_finish_ask session _ caller,
      .inl ⟨_, _, rfl⟩⟩
  | served ready look cached =>
    exact .inr ⟨_, _, getElem?_of_ready? ready, rfl, .inl ⟨_, _, rfl⟩⟩
  | queued ready unserved held =>
    exact .inr ⟨_, _, getElem?_of_ready? ready, rfl, .inr (.inl ⟨_, rfl, id⟩)⟩
  | took obtains cached =>
    obtain ⟨phase, hp, -⟩ := obtains.getElem?
    exact .inr ⟨phase, _, hp, rfl, .inl ⟨_, _, rfl⟩⟩
  | discovered obtains cached =>
    obtain ⟨phase, hp, -⟩ := obtains.getElem?
    have due := RefreshState.cached?_eq_none_iff.mp cached
    exact .inr ⟨phase, _, hp, rfl, .inr (.inr ⟨_, obtains, due, rfl⟩)⟩
  | failed ready => exact .inr ⟨_, _, getElem?_of_ready? ready, rfl, .inl ⟨_, _, rfl⟩⟩
  | committed ready => exact .inr ⟨_, _, getElem?_of_ready? ready, rfl, .inl ⟨_, _, rfl⟩⟩

/-- A turn of a caller changes the phase of no other call. -/
theorem Turned.getElem?_of_ne {caller other : Nat} {after : Session}
    (h : Turned admission session caller after) (ho : other ≠ caller) :
    after.calls[other]? = session.calls[other]? := by
  rcases h.calls_eq with rfl | ⟨old, new, -, hc, -⟩
  · rfl
  · rw [hc, List.getElem?_set_ne (Ne.symm ho)]

/-- A call that has called discovery stays one that has. -/
theorem Orderly.spent_move (h : session.Orderly) {caller : Nat}
    (spent : InPhase Phase.Spent session.calls caller) (admission : Admission) (move : Move) :
    InPhase Phase.Spent (session.move admission move).calls caller := by
  cases move with
  | call delay request => exact (inPhase_concat id session.calls caller).mpr spent
  | wait nanos => exact spent
  | turn other =>
    have ht := h.turned admission other
    obtain ⟨phase, hp, hs⟩ := spent
    by_cases ho : caller = other
    · subst ho
      rw [Session.move]
      rcases ht.calls_eq with he | ⟨old, new, hold, hc, hnew⟩
      · rw [he]
        exact ⟨phase, hp, hs⟩
      · rw [hp] at hold
        cases hold
        rw [hc, inPhase_set hp]
        rcases hnew with ⟨_, _, rfl⟩ | ⟨_, -, hn⟩ | ⟨_, -, -, rfl⟩
        · exact .inl ⟨rfl, trivial⟩
        · exact absurd hs hn
        · exact .inl ⟨rfl, trivial⟩
    · exact ⟨phase, (ht.getElem?_of_ne ho).trans hp, hs⟩

/-- A call calls discovery at most once in a run, and not at all once it has. -/
theorem Orderly.discoveries_le_one (h : session.Orderly) (admission : Admission) (caller : Nat)
    (moves : List Move) :
    discoveries admission caller session moves ≤ 1 ∧
      (InPhase Phase.Spent session.calls caller →
        discoveries admission caller session moves = 0) := by
  -- Neither part is kept alone: the call that counts one is spent afterwards.
  induction moves generalizing session with
  | nil => exact ⟨Nat.zero_le 1, fun _ => rfl⟩
  | cons head rest ih =>
    obtain ⟨hle, hzero⟩ := ih (h.move admission head)
    have hz := fun spent => hzero (h.spent_move spent admission head)
    cases head with
    | call delay request => exact ⟨hle, hz⟩
    | wait nanos => exact ⟨hle, hz⟩
    | turn other =>
      rw [discoveries]
      by_cases ho : other = caller
      · subst ho
        rw [if_pos rfl]
        rcases (h.turned admission other).source_calls with
          hs | ⟨hs, ⟨interval, obtains⟩, due⟩
        · rw [hs, Nat.sub_self, Nat.zero_add]
          exact ⟨hle, hz⟩
        · have hn := hzero ⟨_, obtains.fetching due, trivial⟩
          rw [Session.move] at hn
          rw [hn, hs]
          refine ⟨by omega, fun spent => ?_⟩
          obtain ⟨phase, hp, hu⟩ := obtains.getElem?
          obtain ⟨phase', hp', hu'⟩ := spent
          rw [hp] at hp'
          cases hp'
          exact absurd hu' hu
      · rw [if_neg ho, Nat.zero_add]
        exact ⟨hle, hz⟩

/-- The discovery calls of a run in two parts. -/
theorem discoveries_append (admission : Admission) (caller : Nat) (session : Session)
    (first second : List Move) :
    discoveries admission caller session (first ++ second) =
      discoveries admission caller session first +
        discoveries admission caller (session.run admission first) second := by
  induction first generalizing session with
  | nil => rw [List.nil_append, discoveries, Nat.zero_add, run, List.foldl_nil]
  | cons head rest ih =>
    cases head with
    | call delay request => exact ih (session.move admission (.call delay request))
    | wait nanos => exact ih (session.move admission (.wait nanos))
    | turn other =>
      rw [List.cons_append, discoveries, discoveries, ih, Nat.add_assoc]
      rfl

/-- Whoever called discovery in a run is counted. -/
theorem CalledDiscovery.one_le_discoveries {first : Session} {moves : List Move} {caller : Nat}
    {turn : Instant} {interval : Duration} {outcome : DiscoveryOutcome}
    (h : CalledDiscovery admission first moves caller turn interval outcome) :
    1 ≤ discoveries admission caller first moves := by
  obtain ⟨before, after, rfl, -, -, discovers, -⟩ := h
  rw [Discovers, Session.move] at discovers
  rw [discoveries_append, discoveries, if_pos rfl]
  omega

/-- A call that has gone on to a phase did so in a turn of its caller. -/
theorem Orderly.phase_origin {first : Session} (horder : first.Orderly) {moves : List Move}
    {caller : Nat} {phase : Phase} (hfirst : first.calls[caller]? ≠ some phase)
    (h : (first.run admission moves).calls[caller]? = some phase)
    (hn : ∀ due request, phase ≠ .starting due request) :
    ∃ before after, moves = before ++ .turn caller :: after ∧
      (first.run admission before).calls[caller]? ≠ some phase ∧
      ((first.run admission before).turn admission caller).calls[caller]? = some phase := by
  induction moves using List.reverseRecOn with
  | nil => exact absurd h hfirst
  | append_singleton rest last ih =>
    -- Either the phase was there before the last move, or the last move is the turn.
    by_cases hr : (first.run admission rest).calls[caller]? = some phase
    · obtain ⟨before, after, rfl, hb⟩ := ih hr
      refine ⟨before, after ++ [last], ?_, hb⟩
      rw [List.append_assoc, List.cons_append]
    · rw [run_concat] at h
      cases last with
      | call delay request =>
        have hi : InPhase (· = phase) (first.run admission rest).calls caller :=
          (inPhase_concat (fun he => hn _ _ he.symm) _ caller).mp ⟨phase, h, rfl⟩
        obtain ⟨_, hp, rfl⟩ := hi
        exact absurd hp hr
      | wait nanos => exact absurd h hr
      | turn other =>
        by_cases ho : caller = other
        · subst ho
          exact ⟨rest, [], rfl, hr, h⟩
        · have ht := (horder.run admission rest).turned admission other
          exact absurd ((ht.getElem?_of_ne ho).symm.trans h) hr

/-- Whoever waits for a discovery response called discovery in a turn of its own,
at the instant and with the interval that it keeps, and waits for what the source
responded then. -/
theorem Orderly.fetching_origin {first : Session} (horder : first.Orderly) {moves : List Move}
    {caller : Nat} {turn due : Instant} {interval : Duration} {outcome : DiscoveryOutcome}
    (hfirst : first.calls[caller]? ≠ some (.fetching turn interval outcome due))
    (h : (first.run admission moves).calls[caller]? =
      some (.fetching turn interval outcome due)) :
    CalledDiscovery admission first moves caller turn interval outcome := by
  obtain ⟨before, after, hm, hb, ht⟩ := horder.phase_origin hfirst h nofun
  refine ⟨before, after, hm, ?_⟩
  have ho := horder.run admission before
  rcases (ho.turned admission caller).calls_eq with he | ⟨old, new, hold, hc, hnew⟩
  · rw [he] at ht
    exact absurd ht hb
  · rw [hc, getElem?_set_of_getElem? hold] at ht
    cases ht
    rcases hnew with ⟨_, _, hn⟩ | ⟨_, hn, -⟩ | ⟨_, obtains, hdue, hn⟩
    · cases hn
    · cases hn
    · cases hn
      exact ⟨rfl, obtains, obtains.discovers_iff.mpr hdue, rfl⟩

/-- A call that has gone on to a phase since nobody had called did so in a turn of
its caller. -/
theorem phase_origin {now : Instant} {mapper : Mapper} {source : Source} {moves : List Move}
    {caller : Nat} {phase : Phase}
    (h : ((start now mapper source).run admission moves).calls[caller]? = some phase)
    (hn : ∀ due request, phase ≠ .starting due request) :
    ∃ before after, moves = before ++ .turn caller :: after ∧
      ((start now mapper source).run admission before).calls[caller]? ≠ some phase ∧
      (((start now mapper source).run admission before).turn admission caller).calls[caller]? =
        some phase :=
  (orderly_start now mapper source).phase_origin nofun h hn

/-- Whoever waits for a discovery response called discovery since nobody had called. -/
theorem fetching_origin {now : Instant} {mapper : Mapper} {source : Source} {moves : List Move}
    {caller : Nat} {turn due : Instant} {interval : Duration} {outcome : DiscoveryOutcome}
    (h : ((start now mapper source).run admission moves).calls[caller]? =
      some (.fetching turn interval outcome due)) :
    CalledDiscovery admission (start now mapper source) moves caller turn interval outcome :=
  (orderly_start now mapper source).fetching_origin nofun h

end ModelRegistry.Session
