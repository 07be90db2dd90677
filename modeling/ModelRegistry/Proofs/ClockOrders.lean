import ModelRegistry.Proofs.VirtualClock

/-!
# Orders of turns

The virtual clock settles at which instant the next turn is, but not whose turn it is
when several calls can go on at that instant: any of them may be next, or an order of
the callers may decide. A run is clocked if each of its turns is one that may be next,
and if it goes on until all calls are over. In every order there is a clocked run, and
only one if of two callers one only precedes the other; when the call made first is
preferred, it is the run by which batches of calls are served. What the calls come to is
not said here.
-/

namespace ModelRegistry.Session

/-- A turn comes before another or at the same instant, if its caller precedes the other
one then. -/
def Sooner (precedes : Nat → Nat → Prop) (first second : Instant × Nat) : Prop :=
  first.1 < second.1 ∨ first.1 = second.1 ∧ precedes first.2 second.2

/-- A turn may be next, of calls of which at one instant those are preferred that
precede the others. -/
structure Chosen (precedes : Nat → Nat → Prop) (session : Session) (time : Instant)
    (caller : Nat) : Prop where
  /-- The call can go on at that instant, and not before. -/
  goesOn : ∃ phase due, session.calls[caller]? = some phase ∧
    session.due? caller phase = some due ∧ time = max due session.now
  /-- No other call can go on sooner, and the caller precedes those that can go on then. -/
  first : ∀ other phase due, session.calls[other]? = some phase →
    session.due? other phase = some due →
    Sooner precedes (time, caller) (max due session.now, other)

/-- A run on the virtual clock: time passes to the instant of the next turn, until all
calls are over. -/
inductive Clocked (precedes : Nat → Nat → Prop) (admission : Admission) :
    Session → List Move → Prop
  /-- All calls are over. -/
  | ended {session : Session} (finished : ∀ phase ∈ session.calls, phase.Finished) :
      Clocked precedes admission session []
  /-- A caller has the next turn. -/
  | next {session : Session} {time : Instant} {caller : Nat} {moves : List Move}
      (chosen : Chosen precedes session time caller)
      (rest : Clocked precedes admission
        ({ session with now := time }.turn admission caller) moves) :
      Clocked precedes admission session (.wait (time - session.now) :: .turn caller :: moves)

/-- The discovery calls of a run in order: when each is made, and in whose turn. -/
def discoveryCalls (admission : Admission) : Session → List Move → List (Instant × Nat)
  | _, [] => []
  | session, .turn caller :: moves =>
    (if session.source.calls < (session.turn admission caller).source.calls then
      [(session.now, caller)] else []) ++
      discoveryCalls admission (session.turn admission caller) moves
  | session, move :: moves => discoveryCalls admission (session.move admission move) moves

/-- The moves of rounds of calls, each made when all calls before are over. -/
def rounds (admission : Admission) : Session → List (List (Nat × Request)) → List Move
  | _, [] => []
  | session, batch :: batches =>
    session.scheduled admission batch ++ rounds admission (session.batch admission batch) batches

/-- The turns that calls can have, each at the first instant at which its call can go on. -/
def turns (session : Session) : List (Instant × Nat) :=
  (List.range session.calls.length).filterMap fun caller =>
    (session.calls[caller]?.bind (session.due? caller)).map fun due =>
      (max due session.now, caller)

variable {precedes : Nat → Nat → Prop} {admission : Admission} {session : Session}
  {time : Instant} {caller : Nat}

/-- A turn is one of those that calls can have if its call can go on at its instant, and
not before. -/
theorem mem_turns_iff : (time, caller) ∈ session.turns ↔
    ∃ phase due, session.calls[caller]? = some phase ∧
      session.due? caller phase = some due ∧ time = max due session.now := by
  simp only [turns, List.mem_filterMap, List.mem_range, Option.map_eq_some_iff,
    Option.bind_eq_some_iff, Prod.mk.injEq]
  constructor
  · rintro ⟨_, -, due, ⟨phase, hp, hd⟩, rfl, rfl⟩
    exact ⟨phase, due, hp, hd, rfl⟩
  · rintro ⟨phase, due, hp, hd, rfl⟩
    exact ⟨caller, (List.getElem?_eq_some_iff.mp hp).1, due, ⟨phase, hp, hd⟩, rfl, rfl⟩

/-- If any two things can be compared, one of those in a list comes before all of them. -/
theorem exists_least {α : Type} {le : α → α → Prop}
    (total : ∀ first second, le first second ∨ le second first)
    (trans : ∀ first second third, le first second → le second third → le first third)
    {items : List α} (some : items ≠ []) : ∃ least ∈ items, ∀ item ∈ items, le least item := by
  induction items with
  | nil => exact absurd rfl some
  | cons head rest ih =>
    have self : le head head := (total head head).elim id id
    cases rest with
    | nil => exact ⟨head, List.mem_cons_self, List.forall_mem_singleton.mpr self⟩
    | cons next others =>
      obtain ⟨least, hm, hl⟩ := ih (List.cons_ne_nil next others)
      rcases total head least with hh | hh
      · refine ⟨head, List.mem_cons_self, List.forall_mem_cons.mpr ⟨self, ?_⟩⟩
        exact fun item hi => trans head least item hh (hl item hi)
      · exact ⟨least, List.mem_cons_of_mem head hm, List.forall_mem_cons.mpr ⟨hh, hl⟩⟩

namespace Chosen

/-- Time does not go back for the next turn. -/
theorem now_le (h : Chosen precedes session time caller) : session.now ≤ time := by
  obtain ⟨_, due, -, -, rfl⟩ := h.goesOn
  exact Nat.le_max_right due session.now

/-- Time does not pass a call that can go on. -/
theorem le (h : Chosen precedes session time caller) {other : Nat} {phase : Phase}
    {due : Instant} (hp : session.calls[other]? = some phase)
    (hd : session.due? other phase = some due) : time ≤ max due session.now := by
  rcases h.first other phase due hp hd with hl | ⟨he, -⟩
  · exact Nat.le_of_lt hl
  · exact Nat.le_of_eq he

/-- No turn is next when all calls are over. -/
theorem not_finished (h : Chosen precedes session time caller) :
    ¬∀ phase ∈ session.calls, phase.Finished := by
  intro finished
  obtain ⟨phase, due, hp, hd, -⟩ := h.goesOn
  obtain ⟨_, _, rfl⟩ := finished phase (List.mem_of_getElem? hp)
  cases hd

/-- At the instant of the next turn its call can go on. -/
theorem ready? (h : Chosen precedes session time caller) :
    ∃ phase, { session with now := time : Session }.ready? caller = some phase := by
  obtain ⟨phase, due, hp, hd, ht⟩ := h.goesOn
  exact ⟨phase, ready?_eq_some_iff.mpr ⟨hp, due, hd, ht ▸ Nat.le_max_left due session.now⟩⟩

end Chosen

/-- Any two turns can be compared, if any two callers can. -/
theorem Sooner.total (total : ∀ caller other, precedes caller other ∨ precedes other caller)
    (first second : Instant × Nat) :
    Sooner precedes first second ∨ Sooner precedes second first := by
  rcases Nat.lt_trichotomy first.1 second.1 with hl | he | hl
  · exact .inl (.inl hl)
  · exact (total first.2 second.2).imp (fun hp => .inr ⟨he, hp⟩) fun hp => .inr ⟨he.symm, hp⟩
  · exact .inr (.inl hl)

/-- Of three turns in order the first comes before the last, if it is so for callers. -/
theorem Sooner.trans (trans : ∀ first second third, precedes first second →
      precedes second third → precedes first third) (first second third : Instant × Nat)
    (h : Sooner precedes first second) (g : Sooner precedes second third) :
    Sooner precedes first third := by
  rcases h with hl | ⟨he, hp⟩
  · rcases g with hl' | ⟨he', -⟩
    · exact .inl (Nat.lt_trans hl hl')
    · exact .inl (he' ▸ hl)
  · rcases g with hl' | ⟨he', hp'⟩
    · exact .inl (he ▸ hl')
    · exact .inr ⟨he.trans he', trans first.2 second.2 third.2 hp hp'⟩

/-- As long as a call can go on, some turn may be next in every order of the callers. -/
theorem exists_chosen (total : ∀ caller other, precedes caller other ∨ precedes other caller)
    (trans : ∀ first second third, precedes first second → precedes second third →
      precedes first third)
    (some : session.turns ≠ []) : ∃ time caller, Chosen precedes session time caller := by
  obtain ⟨⟨time, caller⟩, hm, hl⟩ := exists_least (Sooner.total total) (Sooner.trans trans) some
  exact ⟨time, caller, mem_turns_iff.mp hm, fun other phase due hp hd =>
    hl (max due session.now, other) (mem_turns_iff.mpr ⟨phase, due, hp, hd, rfl⟩)⟩

/-- The next turn may be next when the call made first is preferred. -/
theorem Next.chosen (h : session.Next time caller) : Chosen (· ≤ ·) session time caller :=
  ⟨h.goesOn, h.before⟩

/-- When of two callers one only precedes the other, only one turn may be next. -/
theorem Chosen.unique {later : Instant} {other : Nat}
    (antisymm : ∀ caller other, precedes caller other → precedes other caller → caller = other)
    (h : Chosen precedes session time caller) (g : Chosen precedes session later other) :
    time = later ∧ caller = other := by
  obtain ⟨phase, due, hp, hd, ht⟩ := h.goesOn
  obtain ⟨another, begun, hq, hb, hl⟩ := g.goesOn
  have he : time = later := Nat.le_antisymm (hl ▸ h.le hq hb) (ht ▸ g.le hp hd)
  subst he
  refine ⟨rfl, ?_⟩
  rcases h.first other another begun hq hb with hn | ⟨-, ho⟩
  · exact absurd (hl ▸ hn) (Nat.lt_irrefl time)
  · rcases g.first caller phase due hp hd with hn | ⟨-, hc⟩
    · exact absurd (ht ▸ hn) (Nat.lt_irrefl time)
    · exact antisymm caller other ho hc

/-- Time passes to a later instant by the difference. -/
theorem move_wait (h : session.now ≤ time) (admission : Admission) :
    session.move admission (.wait (time - session.now)) = { session with now := time } := by
  rw [Session.move, Nat.add_sub_cancel' h]

/-- A run begins with time that passes and a turn. -/
theorem run_next (h : session.now ≤ time) (admission : Admission) (caller : Nat)
    (moves : List Move) :
    session.run admission (.wait (time - session.now) :: .turn caller :: moves) =
      ({ session with now := time }.turn admission caller).run admission moves := by
  rw [run, List.foldl_cons, List.foldl_cons, move_wait h]
  rfl

/-- What every turn keeps that may be next holds after a clocked run. -/
theorem Clocked.induction {motive : Session → Prop}
    (step : ∀ session time caller, motive session → Chosen precedes session time caller →
      motive ({ session with now := time }.turn admission caller))
    {moves : List Move} (h : Clocked precedes admission session moves) (start : motive session) :
    motive (session.run admission moves) := by
  induction h with
  | ended finished => exact start
  | next chosen rest ih =>
    rw [run_next chosen.now_le]
    exact ih (step _ _ _ start chosen)

/-- After a clocked run all calls are over. -/
theorem Clocked.finished {moves : List Move} (h : Clocked precedes admission session moves) :
    ∀ phase ∈ (session.run admission moves).calls, phase.Finished := by
  induction h with
  | ended finished => exact finished
  | next chosen rest ih =>
    rw [run_next chosen.now_le]
    exact ih

/-- The discovery calls of a run that begins with time that passes and a turn. -/
theorem discoveryCalls_next (h : session.now ≤ time) (admission : Admission) (caller : Nat)
    (moves : List Move) :
    discoveryCalls admission session (.wait (time - session.now) :: .turn caller :: moves) =
      (if session.source.calls <
          ({ session with now := time }.turn admission caller).source.calls then
        [(time, caller)] else []) ++
        discoveryCalls admission ({ session with now := time }.turn admission caller) moves := by
  have hw : discoveryCalls admission session
      (.wait (time - session.now) :: .turn caller :: moves) =
      discoveryCalls admission (session.move admission (.wait (time - session.now)))
        (.turn caller :: moves) := rfl
  rw [hw, move_wait h, discoveryCalls]

/-- The discovery calls of a run in two parts. -/
theorem discoveryCalls_append (admission : Admission) (session : Session)
    (first second : List Move) :
    discoveryCalls admission session (first ++ second) =
      discoveryCalls admission session first ++
        discoveryCalls admission (session.run admission first) second := by
  induction first generalizing session with
  | nil => rfl
  | cons head rest ih =>
    cases head with
    | call delay request => exact ih _
    | wait nanos => exact ih _
    | turn caller =>
      rw [List.cons_append, discoveryCalls, discoveryCalls, ih, List.append_assoc]
      rfl

/-- Next turns are a clocked run if there are enough of them. -/
theorem Orderly.clocked_driven (h : session.Orderly) (admission : Admission) {turns : Nat}
    (enough : turnsLeft session.calls ≤ turns) :
    Clocked (· ≤ ·) admission session (driven admission turns session) := by
  induction turns generalizing session with
  | zero => exact .ended (h.finished_drive admission enough)
  | succ turns ih =>
    rw [driven]
    split
    · rename_i hn
      exact .ended (h.finished_of_next? hn)
    · rename_i time caller hn
      have next := next_of_next? hn
      obtain ⟨phase, hr⟩ := next.ready?
      have ht := (h.pass time).turned admission caller
      have hl := ht.turnsLeft_lt hr
      have hs : turnsLeft { session with now := time : Session }.calls =
        turnsLeft session.calls := rfl
      exact .next next.chosen (ih ((h.pass time).of_turned ht) (by omega))

/-- In every order of the callers there is a clocked run. -/
theorem Orderly.exists_clocked (h : session.Orderly)
    (total : ∀ caller other, precedes caller other ∨ precedes other caller)
    (trans : ∀ first second third, precedes first second → precedes second third →
      precedes first third) (admission : Admission) :
    ∃ moves, Clocked precedes admission session moves := by
  -- Each turn leaves one turn less to its call.
  induction hn : turnsLeft session.calls using Nat.strong_induction_on generalizing session with
  | _ left ih =>
    by_cases finished : ∀ phase ∈ session.calls, phase.Finished
    · exact ⟨[], .ended finished⟩
    · have hsome : session.turns ≠ [] := by
        cases hnext : session.next? with
        | none => exact absurd (h.finished_of_next? hnext) finished
        | some turn => exact List.ne_nil_of_mem (mem_turns_iff.mpr (next_of_next? hnext).goesOn)
      obtain ⟨time, caller, chosen⟩ := exists_chosen total trans hsome
      obtain ⟨phase, hr⟩ := chosen.ready?
      have ht := (h.pass time).turned admission caller
      have hl : turnsLeft ({ session with now := time }.turn admission caller).calls < left :=
        hn ▸ ht.turnsLeft_lt hr
      obtain ⟨moves, clocked⟩ := ih _ hl ((h.pass time).of_turned ht) rfl
      exact ⟨_, .next chosen clocked⟩

/-- When of two callers one only precedes the other, there is only one clocked run. -/
theorem Clocked.unique {moves others : List Move}
    (antisymm : ∀ caller other, precedes caller other → precedes other caller → caller = other)
    (h : Clocked precedes admission session moves)
    (g : Clocked precedes admission session others) : moves = others := by
  induction h generalizing others with
  | ended finished =>
    cases g with
    | ended _ => rfl
    | next chosen _ => exact absurd finished chosen.not_finished
  | next chosen rest ih =>
    cases g with
    | ended finished => exact absurd finished chosen.not_finished
    | next other more =>
      obtain ⟨rfl, rfl⟩ := chosen.unique antisymm other
      rw [ih more]

/-- Rounds of calls are a run. -/
theorem foldl_batch_eq_run (admission : Admission) (session : Session)
    (batches : List (List (Nat × Request))) :
    batches.foldl (Session.batch admission) session =
      session.run admission (session.rounds admission batches) := by
  induction batches generalizing session with
  | nil => rfl
  | cons head rest ih => rw [List.foldl_cons, ih, rounds, run_append, ← batch_eq_run]

end ModelRegistry.Session
