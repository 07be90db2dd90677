import Mathlib
import ModelRegistry.Proofs.DiscoveryCalls
import ModelRegistry.Schedule

/-!
# The virtual clock

The next turn on the virtual clock is that of the call that can go on first; of
several at one instant it is that of the call made first. So time never passes
while a call can go on. What every next turn keeps holds to the end, which comes:
each next turn leaves one turn less to its call, and when no call can go on all
are over, since whoever is in the queue waits for a holder that can. A call in the
queue waits as long as its holder does; no bound on that is claimed.
-/

namespace ModelRegistry

/-- The number of turns that a call has at most until it is over. -/
def Phase.turnsLeft : Phase → Nat
  | .starting _ _ => 3
  | .queued _ => 2
  | .fetching .. => 1
  | .finished _ _ => 0

/-- The call was answered. -/
def Phase.Finished (phase : Phase) : Prop := ∃ time answer, phase = .finished time answer

/-- A call that has not begun is not over. -/
theorem Phase.not_finished_starting (due : Instant) (request : Request) :
    ¬(Phase.starting due request).Finished := by
  rintro ⟨time, answer, h⟩
  cases h

/-- A refresh at the gate is not over. -/
theorem Phase.AtGate.not_finished {phase : Phase} (h : phase.AtGate) : ¬phase.Finished := by
  rintro ⟨time, answer, rfl⟩
  exact h

/-- Calls that are over are not at the gate. -/
theorem not_atGate_of_finished {calls : List Phase} (finished : ∀ phase ∈ calls, phase.Finished)
    (caller : Nat) : ¬InPhase Phase.AtGate calls caller := by
  rintro ⟨phase, hp, ha⟩
  exact ha.not_finished (finished phase (List.mem_of_getElem? hp))

/-- A call that calls discovery yet is not over. -/
theorem Phase.not_finished_of_not_spent {phase : Phase} (h : ¬phase.Spent) :
    ¬phase.Finished := by
  rintro ⟨time, answer, rfl⟩
  exact h trivial

/-- A call that has not called discovery has two turns at least. -/
theorem Phase.two_le_turnsLeft {phase : Phase} (h : ¬phase.Spent) : 2 ≤ phase.turnsLeft := by
  cases phase with
  | starting due request => exact Nat.le_succ 2
  | queued interval => exact Nat.le_refl 2
  | fetching turn interval outcome due => exact absurd trivial h
  | finished time answer => exact absurd trivial h

namespace Session

/-- A turn comes before another or is the same: it is at an earlier instant, or at
the same instant that of a call which was not made later. -/
def Before (first second : Nat × Nat) : Prop :=
  first.1 < second.1 ∨ first.1 = second.1 ∧ first.2 ≤ second.2

/-- Of three turns in order the first comes before the last. -/
theorem Before.trans {first second third : Nat × Nat} (h : Before first second)
    (g : Before second third) : Before first third := by
  unfold Before at *
  omega

/-- The earlier one of two turns is one of the two. -/
theorem eq_or_eq_of_earlier {first second : Option (Instant × Nat)} {turn : Instant × Nat}
    (h : earlier first second = some turn) : first = some turn ∨ second = some turn := by
  cases first with
  | none => exact .inr h
  | some one =>
    cases second with
    | none => exact .inl h
    | some other =>
      rw [earlier] at h
      split at h
      · exact .inr h
      · exact .inl h

/-- The earlier one of two turns is not after the first. -/
theorem earlier_before_left (turn : Instant × Nat) (second : Option (Instant × Nat)) :
    ∃ least, earlier (some turn) second = some least ∧ Before least turn := by
  cases second with
  | none => exact ⟨turn, rfl, .inr ⟨rfl, Nat.le_refl _⟩⟩
  | some other =>
    by_cases ho : other.1 < turn.1
    · exact ⟨other, if_pos ho, .inl ho⟩
    · exact ⟨turn, if_neg ho, .inr ⟨rfl, Nat.le_refl _⟩⟩

/-- The earlier one of two turns is not after the second, if the call of the first
was made earlier. -/
theorem earlier_before_right {first : Option (Instant × Nat)} {turn : Instant × Nat}
    (made : ∀ other, first = some other → other.2 ≤ turn.2) :
    ∃ least, earlier first (some turn) = some least ∧ Before least turn := by
  cases first with
  | none => exact ⟨turn, rfl, .inr ⟨rfl, Nat.le_refl _⟩⟩
  | some other =>
    have hm := made other rfl
    by_cases ho : turn.1 < other.1
    · exact ⟨turn, if_pos ho, .inr ⟨rfl, Nat.le_refl _⟩⟩
    · refine ⟨other, if_neg ho, ?_⟩
      rcases Nat.lt_or_eq_of_le (Nat.le_of_not_lt ho) with hl | he
      · exact .inl hl
      · exact .inr ⟨he, hm⟩

/-- The next turn is that of a call that can go on. -/
theorem goesOn_of_nextFrom {session : Session} {phases : List Phase} {place : Nat}
    {turn : Instant × Nat} (h : session.nextFrom phases place = some turn) :
    ∃ index phase due, phases[index]? = some phase ∧
      session.due? (place + index) phase = some due ∧
      turn = (max due session.now, place + index) := by
  induction phases generalizing place with
  | nil => cases h
  | cons head rest ih =>
    rcases eq_or_eq_of_earlier h with hh | hr
    · obtain ⟨due, hd, rfl⟩ := Option.map_eq_some_iff.mp hh
      exact ⟨0, head, due, rfl, hd, rfl⟩
    · obtain ⟨index, phase, due, hp, hd, ht⟩ := ih hr
      have he : place + 1 + index = place + (index + 1) := by omega
      rw [he] at hd ht
      exact ⟨index + 1, phase, due, hp, hd, ht⟩

/-- The next turn is not after that of any call that can go on. -/
theorem nextFrom_before {session : Session} {phases : List Phase} {place index : Nat}
    {phase : Phase} {due : Instant} (hp : phases[index]? = some phase)
    (hd : session.due? (place + index) phase = some due) :
    ∃ turn, session.nextFrom phases place = some turn ∧
      Before turn (max due session.now, place + index) := by
  induction phases generalizing place index with
  | nil => cases hp
  | cons head rest ih =>
    cases index with
    | zero =>
      cases hp
      rw [nextFrom, show session.due? place phase = some due from hd]
      exact earlier_before_left _ _
    | succ index =>
      have he : place + (index + 1) = place + 1 + index := by omega
      rw [he] at hd ⊢
      obtain ⟨turn, ht, hb⟩ := ih hp hd
      have hm : ∀ other,
          (session.due? place head).map (fun due => (max due session.now, place)) = some other →
          other.2 ≤ turn.2 := by
        intro other ho
        obtain ⟨_, -, rfl⟩ := Option.map_eq_some_iff.mp ho
        obtain ⟨later, -, -, -, -, rfl⟩ := goesOn_of_nextFrom ht
        exact Nat.le_trans (Nat.le_succ place) (Nat.le_add_right _ later)
      obtain ⟨least, hl, hlb⟩ := earlier_before_right hm
      rw [nextFrom, ht]
      exact ⟨least, hl, hlb.trans hb⟩

/-- A caller has the next turn, at an instant. -/
structure Next (session : Session) (time : Instant) (caller : Nat) : Prop where
  /-- Its call can go on at that instant, and not before. -/
  goesOn : ∃ phase due, session.calls[caller]? = some phase ∧
    session.due? caller phase = some due ∧ time = max due session.now
  /-- Its turn is not after that of any other call that can go on. -/
  before : ∀ other phase due, session.calls[other]? = some phase →
    session.due? other phase = some due → Before (time, caller) (max due session.now, other)

/-- What is found to be the next turn is the next turn. -/
theorem next_of_next? {session : Session} {time : Instant} {caller : Nat}
    (h : session.next? = some (time, caller)) : session.Next time caller where
  goesOn := by
    obtain ⟨index, phase, due, hp, hd, ht⟩ := goesOn_of_nextFrom h
    rw [Nat.zero_add] at hd ht
    cases ht
    exact ⟨phase, due, hp, hd, rfl⟩
  before other phase due hp hd := by
    rw [← Nat.zero_add other] at hd
    obtain ⟨turn, ht, hb⟩ := nextFrom_before hp hd
    have he : some turn = some (time, caller) := ht.symm.trans h
    cases he
    rw [Nat.zero_add] at hb
    exact hb

namespace Next

variable {session : Session} {time : Instant} {caller : Nat}

/-- Time does not go back for the next turn. -/
theorem now_le (h : session.Next time caller) : session.now ≤ time := by
  obtain ⟨_, due, -, -, rfl⟩ := h.goesOn
  exact Nat.le_max_right due session.now

/-- At the instant of the next turn its call can go on. -/
theorem ready? (h : session.Next time caller) :
    ∃ phase, { session with now := time : Session }.ready? caller = some phase := by
  obtain ⟨phase, due, hp, hd, ht⟩ := h.goesOn
  exact ⟨phase, ready?_eq_some_iff.mpr ⟨hp, due, hd, ht ▸ Nat.le_max_left due session.now⟩⟩

end Next

/-- The passing of time leaves a session in order. -/
theorem Orderly.pass {session : Session} (h : session.Orderly) (time : Instant) :
    { session with now := time : Session }.Orderly := ⟨h.serves, h.overdue⟩

/-- The moves of a number of next turns: time passes, and the caller has its turn. -/
def driven (admission : Admission) : Nat → Session → List Move
  | 0, _ => []
  | turns + 1, session =>
    match session.next? with
    | none => []
    | some (time, caller) =>
      .wait (time - session.now) :: .turn caller ::
        driven admission turns ({ session with now := time }.turn admission caller)

/-- Next turns are a run. -/
theorem drive_eq_run (admission : Admission) (turns : Nat) (session : Session) :
    session.drive admission turns = session.run admission (driven admission turns session) := by
  induction turns generalizing session with
  | zero => rfl
  | succ turns ih =>
    rw [drive, driven]
    cases hn : session.next? with
    | none => rfl
    | some turn =>
      have ht : session.now + (turn.1 - session.now) = turn.1 :=
        Nat.add_sub_cancel' (next_of_next? hn).now_le
      dsimp only
      rw [ih, run, run, List.foldl_cons, List.foldl_cons, Session.move, Session.move, ht]

/-- The moves of a batch of calls that comes to its end. -/
def scheduled (admission : Admission) (session : Session) (batch : List (Nat × Request)) :
    List Move :=
  batch.map (fun entry => .call entry.1 entry.2) ++
    driven admission (3 * batch.length) (session.call admission batch)

/-- A batch that comes to its end is a run. -/
theorem batch_eq_run (admission : Admission) (session : Session) (batch : List (Nat × Request)) :
    session.batch admission batch = session.run admission (session.scheduled admission batch) := by
  rw [Session.batch, scheduled, run_append, drive_eq_run]
  rfl

/-- The calls of a batch come after those before. -/
theorem call_eq (admission : Admission) (session : Session) (batch : List (Nat × Request)) :
    session.call admission batch =
      { session with
        calls := session.calls ++
          batch.map fun entry => .starting (session.now + entry.1) entry.2 } := by
  induction batch generalizing session with
  | nil =>
    rw [List.map_nil, List.append_nil]
    rfl
  | cons head rest ih =>
    have hs : session.call admission (head :: rest) =
        (session.move admission (.call head.1 head.2)).call admission rest := rfl
    rw [hs, ih, Session.move]
    simp only [List.append_assoc, List.singleton_append, List.map_cons]

/-- The number of turns that some calls have at most until they are over. -/
def turnsLeft (calls : List Phase) : Nat := (calls.map Phase.turnsLeft).sum

/-- A call that goes to a phase nearer to its end has fewer turns left. -/
theorem turnsLeft_set_lt {calls : List Phase} {caller : Nat} {old new : Phase}
    (h : calls[caller]? = some old) (nearer : new.turnsLeft < old.turnsLeft) :
    turnsLeft (calls.set caller new) < turnsLeft calls := by
  obtain ⟨hl, hg⟩ := List.getElem?_eq_some_iff.mp h
  have ha := ((List.set_perm_cons_eraseIdx hl new).map Phase.turnsLeft).sum_nat
  have hb := ((List.getElem_cons_eraseIdx_perm hl).map Phase.turnsLeft).sum_nat
  rw [List.map_cons, List.sum_cons] at ha hb
  rw [hg] at hb
  unfold turnsLeft
  omega

/-- Whatever happens in the turn of a call that can go on brings it nearer to its
end. -/
theorem Turned.turnsLeft_lt {admission : Admission} {session after : Session} {caller : Nat}
    {phase : Phase} (h : Turned admission session caller after)
    (ready : session.ready? caller = some phase) :
    turnsLeft after.calls < turnsLeft session.calls := by
  cases h with
  | idle waits =>
    rw [waits] at ready
    cases ready
  | asked ready =>
    rw [calls_finish_ask]
    exact turnsLeft_set_lt (getElem?_of_ready? ready) (Nat.zero_lt_succ 2)
  | served ready look cached =>
    exact turnsLeft_set_lt (getElem?_of_ready? ready) (Nat.zero_lt_succ 2)
  | queued ready unserved held =>
    exact turnsLeft_set_lt (getElem?_of_ready? ready) (Nat.lt_succ_self 2)
  | took obtains cached =>
    obtain ⟨phase, hp, hs⟩ := obtains.getElem?
    exact turnsLeft_set_lt hp (Nat.lt_of_lt_of_le Nat.zero_lt_two (Phase.two_le_turnsLeft hs))
  | discovered obtains cached =>
    obtain ⟨phase, hp, hs⟩ := obtains.getElem?
    exact turnsLeft_set_lt hp (Phase.two_le_turnsLeft hs)
  | failed ready => exact turnsLeft_set_lt (getElem?_of_ready? ready) Nat.zero_lt_one
  | committed ready => exact turnsLeft_set_lt (getElem?_of_ready? ready) Nat.zero_lt_one

/-- When no call can go on all are over: whoever is in the queue waits for a holder
of the gate, who can go on. -/
theorem Orderly.finished_of_next? {session : Session} (h : session.Orderly)
    (none : session.next? = none) : ∀ phase ∈ session.calls, phase.Finished := by
  have hd : ∀ caller phase due, session.calls[caller]? = some phase →
      session.due? caller phase ≠ some due := by
    intro caller phase due hp hd
    rw [← Nat.zero_add caller] at hd
    obtain ⟨turn, ht, -⟩ := nextFrom_before hp hd
    have he : some turn = Option.none := ht.symm.trans none
    cases he
  -- The holder of the gate could go on, so nobody is at the gate.
  have hg : session.gate.holder = Option.none := by
    cases hh : session.gate.holder with
    | none => rfl
    | some holder =>
      rcases (h.serves.atGate_of_holder hh).atGate with ⟨_, hp⟩ | ⟨_, _, _, due, hp⟩
      · exact absurd (if_pos hh) (hd holder _ 0 hp)
      · exact absurd rfl (hd holder _ due hp)
  intro phase hm
  obtain ⟨caller, hp⟩ := List.mem_iff_getElem?.mp hm
  cases phase with
  | starting due request => exact absurd rfl (hd caller _ due hp)
  | queued interval =>
    have hl : caller ∈ session.gate.line := (h.serves.mem_line caller).mpr ⟨_, hp, trivial⟩
    rw [h.serves.fair.line_eq_nil hg] at hl
    cases hl
  | fetching turn interval outcome due => exact absurd rfl (hd caller _ due hp)
  | finished time answer => exact ⟨time, answer, rfl⟩

/-- As many next turns as are left bring all calls to their end. -/
theorem Orderly.finished_drive {session : Session} (h : session.Orderly) (admission : Admission)
    {turns : Nat} (enough : turnsLeft session.calls ≤ turns) :
    ∀ phase ∈ (session.drive admission turns).calls, phase.Finished := by
  induction turns generalizing session with
  | zero =>
    -- A next turn would leave fewer turns than none.
    cases hn : session.next? with
    | none => exact h.finished_of_next? hn
    | some turn =>
      obtain ⟨phase, hr⟩ := (next_of_next? hn).ready?
      have hl := ((h.pass turn.1).turned admission turn.2).turnsLeft_lt hr
      have hs : turnsLeft { session with now := turn.1 : Session }.calls =
        turnsLeft session.calls := rfl
      omega
  | succ turns ih =>
    rw [drive]
    split
    · rename_i hn
      exact h.finished_of_next? hn
    · rename_i time caller hn
      obtain ⟨phase, hr⟩ := (next_of_next? hn).ready?
      have ho := h.pass time
      have hl := (ho.turned admission caller).turnsLeft_lt hr
      have hs : turnsLeft { session with now := time : Session }.calls =
        turnsLeft session.calls := rfl
      exact ih (ho.of_turned (ho.turned admission caller)) (by omega)

/-- A call made in a session in order leaves it in order. -/
theorem Orderly.call {session : Session} (h : session.Orderly) (admission : Admission)
    (batch : List (Nat × Request)) : (session.call admission batch).Orderly :=
  h.run admission _

/-- Calls that are over have no turns left. -/
theorem turnsLeft_eq_zero {calls : List Phase} (finished : ∀ phase ∈ calls, phase.Finished) :
    turnsLeft calls = 0 := by
  rw [turnsLeft, List.sum_eq_zero_iff_forall_eq_nat]
  intro turns hm
  obtain ⟨phase, hp, rfl⟩ := List.mem_map.mp hm
  obtain ⟨time, answer, rfl⟩ := finished phase hp
  rfl

/-- Calls that are made when all calls before are over have three turns each. -/
theorem turnsLeft_call {session : Session} (finished : ∀ phase ∈ session.calls, phase.Finished)
    (admission : Admission) (batch : List (Nat × Request)) :
    turnsLeft (session.call admission batch).calls = 3 * batch.length := by
  have hb : (batch.map fun entry =>
      Phase.starting (session.now + entry.1) entry.2).map Phase.turnsLeft =
      List.replicate batch.length 3 := by
    rw [List.map_map]
    exact List.map_const'
  have ho : turnsLeft session.calls = 0 := turnsLeft_eq_zero finished
  rw [call_eq, turnsLeft, List.map_append, List.sum_append, hb, List.sum_replicate_nat]
  rw [turnsLeft] at ho
  omega

/-- A batch of calls that are made when all calls before are over comes to its
end. -/
theorem Orderly.finished_batch {session : Session} (h : session.Orderly)
    (finished : ∀ phase ∈ session.calls, phase.Finished) (admission : Admission)
    (batch : List (Nat × Request)) :
    ∀ phase ∈ (session.batch admission batch).calls, phase.Finished :=
  (h.call admission batch).finished_drive admission
    (Nat.le_of_eq (turnsLeft_call finished admission batch))

/-- Among calls that are over, the answer at a place is that of the call at that
place. -/
theorem answersSince_getElem? {session : Session} {place index : Nat} {time : Instant}
    {answer : Answer} (finished : ∀ phase ∈ session.calls, phase.Finished) (first : Instant)
    (h : session.calls[place + index]? = some (.finished time answer)) :
    (session.answersSince place first)[index]? = some (time - first, answer) := by
  have hd : (session.calls.drop place)[index]? = some (.finished time answer) := by
    rw [List.getElem?_drop, h]
  have ho : ∀ phase ∈ session.calls.drop place, phase.Finished := fun phase hm =>
    finished phase (List.mem_of_mem_drop hm)
  rw [answersSince]
  clear h
  generalize session.calls.drop place = phases at hd ho
  induction phases generalizing index with
  | nil => cases hd
  | cons head rest ih =>
    obtain ⟨time', answer', rfl⟩ := ho head List.mem_cons_self
    cases index with
    | zero =>
      cases hd
      rfl
    | succ index =>
      exact ih hd fun phase hm => ho phase (List.mem_cons_of_mem _ hm)

end Session

end ModelRegistry
