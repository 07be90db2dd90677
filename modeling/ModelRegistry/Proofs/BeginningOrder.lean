import ModelRegistry.Proofs.BatchCalls

/-!
# The order in which refreshes begin

In a clocked run each refresh begins once, and the order in which they begin is read off
the run: it is not that of the calls where of several callers at one instant another one is
preferred. A refresh begins before one that was made for a later instant, and of two that
were made for one instant the one begins first whose caller precedes the other. Whether a
refresh comes to the gate when it begins is not looked at here.
-/

namespace ModelRegistry

/-- The call is a refresh that has not begun. -/
def Phase.ToRefresh : Phase → Prop
  | .starting _ (.refresh _) => True
  | _ => False

/-- A refresh that has not begun was made for an instant. -/
theorem InPhase.toRefresh {calls : List Phase} {caller : Nat}
    (h : InPhase Phase.ToRefresh calls caller) :
    ∃ due asked, calls[caller]? = some (.starting due (.refresh asked)) := by
  obtain ⟨phase, hp, hr⟩ := h
  cases phase with
  | starting due request =>
    cases request with
    | refresh asked => exact ⟨due, asked, hp⟩
    | query query => exact hr.elim
  | _ => exact hr.elim

namespace Session

/-- Refreshes that have not begun are those that were made. -/
theorem inPhase_toRefresh_iff {first : Session} {caller : Nat} :
    InPhase Phase.ToRefresh first.calls caller ↔
      ∃ due interval, first.Refreshes caller due interval := by
  constructor
  · intro h
    obtain ⟨due, asked, hp⟩ := h.toRefresh
    exact ⟨due, _, asked, hp, rfl⟩
  · rintro ⟨due, interval, asked, hp, -⟩
    exact ⟨_, hp, trivial⟩

/-- The caller of a turn, if a refresh begins in it. -/
def beginner (session : Session) (caller : Nat) : List Nat :=
  match session.ready? caller with
  | some (.starting _ (.refresh _)) => [caller]
  | _ => []

/-- The callers whose refreshes begin in a run, in this order. -/
def begun (admission : Admission) : Session → List Move → List Nat
  | _, [] => []
  | session, .turn caller :: moves =>
    session.beginner caller ++ begun admission (session.turn admission caller) moves
  | session, move :: moves => begun admission (session.move admission move) moves

variable {precedes : Nat → Nat → Prop} {admission : Admission} {session : Session}
  {time : Instant} {caller other : Nat} {phase : Phase} {moves : List Move}

/-- A refresh that can begin does in its turn. -/
theorem beginner_of_refresh {due : Instant} {asked : Option Duration}
    (ready : session.ready? caller = some (.starting due (.refresh asked))) :
    session.beginner caller = [caller] := by rw [beginner, ready]

/-- No refresh begins in the turn of another call. -/
theorem beginner_of_not_toRefresh (ready : session.ready? caller = some phase)
    (h : ¬phase.ToRefresh) : session.beginner caller = [] := by
  rw [beginner, ready]
  cases phase with
  | starting due request =>
    cases request with
    | refresh asked => exact absurd trivial h
    | query query => rfl
  | _ => rfl

/-- A refresh begins in a turn of its caller, if it has not begun. -/
theorem mem_beginner_iff (ready : session.ready? caller = some phase) :
    other ∈ session.beginner caller ↔
      other = caller ∧ InPhase Phase.ToRefresh session.calls caller := by
  rw [inPhase_iff (getElem?_of_ready? ready)]
  by_cases h : phase.ToRefresh
  · obtain ⟨due, asked, hp⟩ := InPhase.toRefresh ⟨phase, getElem?_of_ready? ready, h⟩
    rw [getElem?_of_ready? ready] at hp
    cases hp
    rw [beginner_of_refresh ready, List.mem_singleton, and_iff_left h]
  · rw [beginner_of_not_toRefresh ready h]
    exact iff_of_false List.not_mem_nil fun h' => h h'.2

/-- The refreshes that begin in a run that starts with time that passes and a turn. -/
theorem begun_next (h : session.now ≤ time) (admission : Admission) (caller : Nat)
    (moves : List Move) :
    begun admission session (.wait (time - session.now) :: .turn caller :: moves) =
      { session with now := time : Session }.beginner caller ++
        begun admission ({ session with now := time }.turn admission caller) moves := by
  have hw : begun admission session (.wait (time - session.now) :: .turn caller :: moves) =
      begun admission (session.move admission (.wait (time - session.now)))
        (.turn caller :: moves) := rfl
  rw [hw, move_wait h, begun]

/-- In a turn of a call that can go on it begins if it has not, and no other call does. -/
theorem Turned.toRefresh_iff {after : Session} (h : Turned admission session caller after)
    (ready : session.ready? caller = some phase) :
    InPhase Phase.ToRefresh after.calls other ↔
      other ≠ caller ∧ InPhase Phase.ToRefresh session.calls other := by
  rcases h.calls_eq with rfl | ⟨old, new, hp, hc, hnew⟩
  · exact absurd (h.turnsLeft_lt ready) (Nat.lt_irrefl _)
  · have hn : ¬new.ToRefresh := by
      rcases hnew with ⟨_, _, rfl⟩ | ⟨_, rfl, -⟩ | ⟨_, -, -, rfl⟩ <;> exact id
    rw [hc, inPhase_set hp]
    exact or_iff_right fun h => hn h.2

/-- The refreshes that begin in a clocked run are those that have not begun. -/
theorem Clocked.mem_begun_iff (h : Clocked precedes admission session moves)
    (orderly : session.Orderly) :
    caller ∈ begun admission session moves ↔ InPhase Phase.ToRefresh session.calls caller := by
  induction h with
  | ended finished =>
    refine iff_of_false List.not_mem_nil fun ⟨phase, hp, hr⟩ => ?_
    obtain ⟨time, answer, rfl⟩ := finished phase (List.mem_of_getElem? hp)
    exact hr
  | @next session time other moves chosen rest ih =>
    obtain ⟨phase, ready⟩ := chosen.ready?
    have ht := (orderly.pass time).turned admission other
    rw [begun_next chosen.now_le, List.mem_append, mem_beginner_iff ready,
      ih ((orderly.pass time).of_turned ht), ht.toRefresh_iff ready]
    by_cases he : caller = other
    · subst he
      simp
    · simp [he]

/-- No refresh begins twice in a clocked run. -/
theorem Clocked.nodup_begun (h : Clocked precedes admission session moves)
    (orderly : session.Orderly) : (begun admission session moves).Nodup := by
  induction h with
  | ended finished => exact List.nodup_nil
  | @next session time other moves chosen rest ih =>
    obtain ⟨phase, ready⟩ := chosen.ready?
    have ht := (orderly.pass time).turned admission other
    have ho := (orderly.pass time).of_turned ht
    rw [begun_next chosen.now_le, List.nodup_append]
    refine ⟨?_, ih ho, ?_⟩
    · unfold beginner
      split
      · exact List.nodup_singleton other
      · exact List.nodup_nil
    · rintro caller hb later hr rfl
      obtain ⟨rfl, -⟩ := (mem_beginner_iff ready).mp hb
      exact ((ht.toRefresh_iff ready).mp ((rest.mem_begun_iff ho).mp hr)).1 rfl

/-- A refresh begins no later than those that were made for a later instant, or for the same
instant by a caller whom its own precedes. -/
theorem Clocked.sorted_begun {first : Session}
    (h : Clocked precedes admission session moves) (underway : first.Underway session)
    (quiet : ∀ (caller : Nat) due query,
      first.calls[caller]? = some (.starting due (.query query)) → query.Quiet) :
    (begun admission session moves).Pairwise fun caller other =>
      ∀ due later interval another, first.Refreshes caller due interval →
        first.Refreshes other later another → Sooner precedes (due, caller) (later, other) := by
  induction h with
  | ended finished => exact .nil
  | @next session time turning moves chosen rest ih =>
    obtain ⟨phase, ready⟩ := chosen.ready?
    have ht := (underway.pass chosen).orderly.turned admission turning
    have hu := (underway.pass chosen).turned (quiet turning) ht
    rw [begun_next chosen.now_le, List.pairwise_append]
    refine ⟨?_, ih hu, ?_⟩
    · unfold beginner
      split
      · exact List.pairwise_singleton _ turning
      · exact .nil
    · intro caller hb other hr due later interval another hc ho
      obtain ⟨rfl, hcaller⟩ := (mem_beginner_iff ready).mp hb
      obtain ⟨-, hother⟩ := (ht.toRefresh_iff ready).mp ((rest.mem_begun_iff hu.orderly).mp hr)
      obtain ⟨begins, asked, hp⟩ := hcaller.toRefresh
      obtain ⟨begins', asked', hp'⟩ := hother.toRefresh
      have hp : session.calls[caller]? = _ := hp
      have hp' : session.calls[other]? = _ := hp'
      obtain ⟨hd, hn⟩ := underway.came caller _ hp
      obtain ⟨hd', hn'⟩ := underway.came other _ hp'
      -- both were made for the instants at which they can go on
      obtain ⟨rfl, -⟩ := hc.unique ⟨asked, hd, rfl⟩
      obtain ⟨rfl, -⟩ := ho.unique ⟨asked', hd', rfl⟩
      have hs := chosen.first other _ later hp' rfl
      obtain ⟨found, due', hf, hdue, htime⟩ := chosen.goesOn
      rw [hp] at hf
      cases hf
      cases hdue
      rwa [htime, Nat.max_eq_left hn, Nat.max_eq_left hn'] at hs

end Session

end ModelRegistry
