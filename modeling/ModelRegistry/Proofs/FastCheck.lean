import ModelRegistry.Proofs.ClockOrders
import ModelRegistry.Proofs.RunningAhead

/-!
# Looking before the gate

Whether refreshes look at the last answer before they come to the gate or only once they
hold it, on the virtual clock they are answered the same at the same instants, and the
same discovery calls are made. The session that looks first is ahead of the other by the
late callers; the other one catches up before time passes, at the first moment at which
one of them precedes whoever else can go on. So a clocked run of either session gives one
of the other. The events that the two report are not the same, and are not compared.
-/

namespace ModelRegistry.Session

variable {precedes : Nat → Nat → Prop} {admission : Admission} {late : List Nat}
  {quick strict : Session} {time : Instant} {caller : Nat} {moves others : List Move}

/-- A run in which refreshes look at the last answer first, and one in which they do not,
come to the same. -/
structure Agree (quick : Session) (moves : List Move) (strict : Session)
    (others : List Move) : Prop where
  /-- They leave sessions that differ in their logs at most: all calls have the same
  answers, given at the same instants. -/
  left : (strict.run .gateOnly others).unlogged = (quick.run .checkFirst moves).unlogged
  /-- The same callers call discovery at the same instants. -/
  called : discoveryCalls .gateOnly strict others = discoveryCalls .checkFirst quick moves

namespace Agree

/-- Runs in two parts come to the same if both parts do. -/
theorem append {rest more : List Move} (h : Agree quick moves strict others)
    (g : Agree (quick.run .checkFirst moves) rest (strict.run .gateOnly others) more) :
    Agree quick (moves ++ rest) strict (others ++ more) where
  left := by
    rw [run_append, run_append]
    exact g.left
  called := by rw [discoveryCalls_append, discoveryCalls_append, h.called, g.called]

end Agree

namespace Ahead

/-- No time passes while somebody is late. -/
theorem still (h : Ahead late quick strict) (chosen : Chosen precedes strict time caller) :
    late = [] ∨ time = quick.now := by
  cases late with
  | nil => exact .inl rfl
  | cons head rest =>
    right
    obtain ⟨_, resources, -, -, hcached⟩ := h.served head List.mem_cons_self
    -- The holder of the gate has only to go on: nobody waits for discovery.
    have hdue : ∃ (holder : Nat) (phase : Phase), strict.calls[holder]? = some phase ∧
        strict.due? holder phase = some 0 := by
      cases hh : strict.gate.holder with
      | none =>
        have hl := h.line
        rw [h.strictOrderly.serves.fair.line_eq_nil hh] at hl
        exact absurd hl.symm (List.append_ne_nil_of_right_ne_nil _ (List.cons_ne_nil head rest))
      | some holder =>
        rcases (h.strictOrderly.serves.atGate_of_holder hh).atGate with
          ⟨interval, hp⟩ | ⟨turn, interval, outcome, due, hp⟩
        · exact ⟨holder, _, hp, if_pos hh⟩
        · have hl : holder ∉ head :: rest := by
            intro hm
            obtain ⟨_, _, hq, -, -⟩ := h.served holder hm
            rw [hp] at hq
            cases hq
          have hq := (h.same holder hl).symm.trans hp
          have hn := h.inTime.cached? h.quickOrderly ⟨_, hq, trivial⟩
          rw [hcached] at hn
          cases hn
    obtain ⟨holder, phase, hp, hd⟩ := hdue
    have hle := chosen.le hp hd
    have hge := chosen.now_le
    rw [h.now] at hle hge
    exact Nat.le_antisymm (hle.trans_eq (Nat.max_eq_right (Nat.zero_le quick.now))) hge

/-- A call that can go on in the session that is ahead is not late. -/
theorem not_mem_late (h : Ahead late quick strict) {phase : Phase} {due : Instant}
    (hp : quick.calls[caller]? = some phase) (hd : quick.due? caller phase = some due) :
    caller ∉ late := by
  intro hm
  obtain ⟨_, _, -, hq, -⟩ := h.served caller hm
  rw [hp] at hq
  cases hq
  cases hd

/-- The next turn of the session that is behind is that of a late caller, or the next one
of both. -/
theorem chosen_of_strict (h : Ahead late quick strict) (hl : caller ∉ late)
    (chosen : Chosen precedes strict time caller) : Chosen precedes quick time caller where
  goesOn := by
    obtain ⟨phase, due, hp, hd, ht⟩ := chosen.goesOn
    have hq : quick.calls[caller]? = some phase := (h.same caller hl).symm.trans hp
    exact ⟨phase, due, hq, (h.due?_eq hq).symm.trans hd, h.now ▸ ht⟩
  first other phase due hp hd := by
    have ho : other ∉ late := h.not_mem_late hp hd
    rw [← h.now]
    exact chosen.first other phase due ((h.same other ho).trans hp) ((h.due?_eq hp).trans hd)

/-- The first of the late callers may be next while nobody is in line in the session that
is ahead, if it precedes whoever else can go on now. -/
theorem chosen_head {head : Nat} {rest : List Nat} (h : Ahead (head :: rest) quick strict)
    (free : quick.gate.line = []) (self : precedes head head)
    (others : ∀ (other : Nat) phase due, quick.calls[other]? = some phase →
      quick.due? other phase = some due →
      Sooner precedes (quick.now, head) (max due quick.now, other)) :
    Chosen precedes strict quick.now head where
  goesOn := by
    obtain ⟨interval, _, hs, -, -⟩ := h.served head List.mem_cons_self
    refine ⟨_, 0, hs, if_pos (h.held_late free), ?_⟩
    rw [h.now, Nat.max_eq_right (Nat.zero_le quick.now)]
  first other phase due hp hd := by
    rw [h.now]
    by_cases hm : other ∈ head :: rest
    · obtain ⟨-, ⟨_, he⟩, rfl⟩ := h.due?_late hm hp hd
      rw [(List.cons.inj he).1] at self ⊢
      exact .inr ⟨(Nat.max_eq_right (Nat.zero_le quick.now)).symm, self⟩
    · have hq : quick.calls[other]? = some phase := (h.same other hm).symm.trans hp
      exact others other phase due hq ((h.due?_eq hq).symm.trans hd)

/-- The next turn of the session that is ahead may be next in the other too, if it
precedes a late caller that can go on. -/
theorem chosen_of_precedes (h : Ahead late quick strict)
    (chosen : Chosen precedes quick time caller)
    (before : ∀ head rest, late = head :: rest → quick.gate.line = [] →
      time = quick.now ∧ precedes caller head) : Chosen precedes strict time caller where
  goesOn := by
    obtain ⟨phase, due, hp, hd, ht⟩ := chosen.goesOn
    have hl : caller ∉ late := h.not_mem_late hp hd
    exact ⟨phase, due, (h.same caller hl).trans hp, (h.due?_eq hp).trans hd, h.now ▸ ht⟩
  first other phase due hp hd := by
    rw [h.now]
    by_cases hm : other ∈ late
    · obtain ⟨free, ⟨rest, hlate⟩, rfl⟩ := h.due?_late hm hp hd
      obtain ⟨ht, hb⟩ := before other rest hlate free
      exact .inr ⟨ht.trans (Nat.max_eq_right (Nat.zero_le quick.now)).symm, hb⟩
    · have hq : quick.calls[other]? = some phase := (h.same other hm).symm.trans hp
      exact chosen.first other phase due hq ((h.due?_eq hq).symm.trans hd)

/-- The next turn of the session that is ahead may be next in the other too, unless the
first of the late callers comes before. -/
theorem chosen_of_quick (h : Ahead late quick strict)
    (total : ∀ caller other, precedes caller other ∨ precedes other caller)
    (trans : ∀ first second third, precedes first second → precedes second third →
      precedes first third)
    (chosen : Chosen precedes quick time caller) :
    Chosen precedes strict time caller ∨
      ∃ head rest, late = head :: rest ∧ quick.gate.line = [] ∧
        Chosen precedes strict quick.now head := by
  by_cases before : ∀ head rest, late = head :: rest → quick.gate.line = [] →
      time = quick.now ∧ precedes caller head
  · exact .inl (h.chosen_of_precedes chosen before)
  · push Not at before
    obtain ⟨head, rest, rfl, free, hn⟩ := before
    have self : precedes head head := (total head head).elim id id
    refine .inr ⟨head, rest, rfl, free, h.chosen_head free self fun other phase due hp hd => ?_⟩
    rcases chosen.first other phase due hp hd with hl | ⟨he, hc⟩
    · exact .inl (chosen.now_le.trans_lt hl)
    · rcases chosen.now_le.eq_or_lt with ht | ht
      · have hh : precedes head caller := (total head caller).resolve_right (hn ht.symm)
        exact .inr ⟨ht.trans he, trans head caller other hh hc⟩
      · exact .inl (ht.trans_eq he)

/-- If both sessions have a turn of a call that is not late and come to the same from
there, they come to the same. -/
theorem agree_next {later : List Nat} (h : Ahead late quick strict) (passed : quick.now ≤ time)
    (next : Ahead later ({ quick with now := time }.turn .checkFirst caller)
      ({ strict with now := time }.turn .gateOnly caller))
    (rest : Agree ({ quick with now := time }.turn .checkFirst caller) moves
      ({ strict with now := time }.turn .gateOnly caller) others) :
    Agree quick (.wait (time - quick.now) :: .turn caller :: moves)
      strict (.wait (time - strict.now) :: .turn caller :: others) := by
  have hs : strict.now ≤ time := h.now ▸ passed
  refine ⟨?_, ?_⟩
  · rw [run_next passed, run_next hs, rest.left]
  · rw [discoveryCalls_next passed, discoveryCalls_next hs, rest.called, next.source, h.source]

/-- If the first of the late callers has its turn and the sessions come to the same from
there, they come to the same. -/
theorem agree_catchUp {head : Nat} {rest : List Nat} (h : Ahead (head :: rest) quick strict)
    (free : quick.gate.line = []) (agree : Agree quick moves (strict.turn .gateOnly head) others) :
    Agree quick moves strict (.wait (quick.now - strict.now) :: .turn head :: others) := by
  have hs : { strict with now := quick.now } = strict := by rw [← h.now]
  have hle : strict.now ≤ quick.now := Nat.le_of_eq h.now
  obtain ⟨-, hsource⟩ := h.catchUp free
  refine ⟨?_, ?_⟩
  · rw [run_next hle, hs, agree.left]
  · rw [discoveryCalls_next hle, hs, hsource, if_neg (Nat.lt_irrefl _), List.nil_append,
      agree.called]

/-- When all calls are over in the session that is ahead, nobody is in line there. -/
theorem line_of_finished (h : Ahead late quick strict)
    (finished : ∀ phase ∈ quick.calls, phase.Finished) : quick.gate.line = [] := by
  rw [h.quickOrderly.serves.eq_free (not_atGate_of_finished finished), Gate.line_free]

/-- A session finds a run to come to the same by as soon as it has caught up, if as long as
it has not the first of the late callers may be next. -/
theorem exists_of_catchUp (h : Ahead late quick strict)
    (step : ∀ late strict, Ahead late quick strict →
      (∃ others, Clocked precedes .gateOnly strict others ∧ Agree quick moves strict others) ∨
        ∃ head rest, late = head :: rest ∧ quick.gate.line = [] ∧
          Chosen precedes strict quick.now head) :
    ∃ others, Clocked precedes .gateOnly strict others ∧ Agree quick moves strict others := by
  induction late generalizing strict with
  | nil =>
    rcases step [] strict h with found | ⟨head, rest, hn, -, -⟩
    · exact found
    · cases hn
  | cons head rest ih =>
    rcases step (head :: rest) strict h with found | ⟨_, _, he, free, chosen⟩
    · exact found
    · cases he
      obtain ⟨others, clocked, agree⟩ := ih (h.catchUp free).1
      have hs : { strict with now := quick.now } = strict := by rw [← h.now]
      exact ⟨_, .next chosen (hs.symm ▸ clocked), h.agree_catchUp free agree⟩

/-- For each clocked run of the session that is ahead there is one of the other that comes
to the same. -/
theorem exists_strict (total : ∀ caller other, precedes caller other ∨ precedes other caller)
    (trans : ∀ first second third, precedes first second → precedes second third →
      precedes first third)
    (run : Clocked precedes .checkFirst quick moves) (h : Ahead late quick strict) :
    ∃ others, Clocked precedes .gateOnly strict others ∧ Agree quick moves strict others := by
  induction run generalizing late strict with
  | ended finished =>
    refine h.exists_of_catchUp fun late strict h => ?_
    cases late with
    | nil =>
      have hf : ∀ phase ∈ strict.calls, phase.Finished := by
        intro phase hm
        obtain ⟨caller, hp⟩ := List.mem_iff_getElem?.mp hm
        have hq := (h.same caller List.not_mem_nil).symm.trans hp
        exact finished phase (List.mem_of_getElem? hq)
      exact .inl ⟨[], .ended hf, h.unlogged_eq, rfl⟩
    | cons head rest =>
      have free := h.line_of_finished finished
      have self : precedes head head := (total head head).elim id id
      refine .inr ⟨head, rest, rfl, free, h.chosen_head free self fun other phase due hp hd => ?_⟩
      obtain ⟨_, _, rfl⟩ := finished phase (List.mem_of_getElem? hp)
      cases hd
  | next chosen rest ih =>
    refine h.exists_of_catchUp fun late strict h => ?_
    rcases h.chosen_of_quick total trans chosen with hc | found
    · obtain ⟨phase, due, hp, hd, -⟩ := chosen.goesOn
      obtain ⟨later, next⟩ := (h.pass chosen.now_le (h.still hc)).turn (h.not_mem_late hp hd)
      obtain ⟨others, clocked, agree⟩ := ih next
      exact .inl ⟨_, .next hc clocked, h.agree_next chosen.now_le next agree⟩
    · exact .inr found

/-- For each clocked run of the session that is behind there is one of the other that comes
to the same. -/
theorem exists_quick (run : Clocked precedes .gateOnly strict others)
    (h : Ahead late quick strict) :
    ∃ moves, Clocked precedes .checkFirst quick moves ∧ Agree quick moves strict others := by
  induction run generalizing late quick with
  | @ended strict finished =>
    have hl : late = [] := by
      refine List.eq_nil_iff_forall_not_mem.mpr fun caller hm => ?_
      obtain ⟨_, _, hs, -, -⟩ := h.served caller hm
      obtain ⟨_, _, hf⟩ := finished _ (List.mem_of_getElem? hs)
      cases hf
    subst hl
    have hf : ∀ phase ∈ quick.calls, phase.Finished := by
      intro phase hm
      obtain ⟨caller, hp⟩ := List.mem_iff_getElem?.mp hm
      have hs := (h.same caller List.not_mem_nil).trans hp
      exact finished phase (List.mem_of_getElem? hs)
    exact ⟨[], .ended hf, h.unlogged_eq, rfl⟩
  | @next strict time caller others chosen rest ih =>
    by_cases hm : caller ∈ late
    · obtain ⟨phase, due, hp, hd, ht⟩ := chosen.goesOn
      obtain ⟨free, ⟨behind, rfl⟩, rfl⟩ := h.due?_late hm hp hd
      rw [h.now, Nat.max_eq_right (Nat.zero_le quick.now)] at ht
      subst ht
      have hs : { strict with now := quick.now } = strict := by rw [← h.now]
      rw [hs] at ih
      obtain ⟨moves, clocked, agree⟩ := ih (h.catchUp free).1
      exact ⟨moves, clocked, h.agree_catchUp free agree⟩
    · have hc := h.chosen_of_strict hm chosen
      obtain ⟨later, next⟩ := (h.pass hc.now_le (h.still chosen)).turn hm
      obtain ⟨moves, clocked, agree⟩ := ih next
      exact ⟨_, .next hc clocked, h.agree_next hc.now_le next agree⟩

end Ahead

/-- New calls call no discovery. -/
theorem discoveryCalls_call (admission : Admission) (session : Session)
    (batch : List (Nat × Request)) :
    discoveryCalls admission session (batch.map fun entry => .call entry.1 entry.2) = [] := by
  induction batch generalizing session with
  | nil => rfl
  | cons head rest ih => exact ih _

namespace Ahead

/-- Of sessions that differ in their logs at most and in which all calls are over one is
still ahead after a batch of quiet calls is made in both. -/
theorem call (h : Ahead [] quick strict) (finished : ∀ phase ∈ quick.calls, phase.Finished)
    {batch : List (Nat × Request)} (quiet : ∀ entry ∈ batch, entry.2.Quiet) :
    Ahead [] (quick.call .checkFirst batch) (strict.call .gateOnly batch) := by
  have hquiet : ∀ (caller : Nat) due query,
      (quick.call .checkFirst batch).calls[caller]? = some (.starting due (.query query)) →
      query.Quiet := by
    intro caller due query hp
    rw [call_eq] at hp
    rcases List.mem_append.mp (List.mem_of_getElem? hp) with ho | hn
    · exact absurd (finished _ ho) (Phase.not_finished_starting _ _)
    · obtain ⟨entry, he, hs⟩ := List.mem_map.mp hn
      injection hs with _ hr
      have hq := quiet entry he
      rw [hr] at hq
      exact hq
  have hsame : (strict.call .gateOnly batch).unlogged =
      (quick.call .checkFirst batch).unlogged := by
    have hc := calls_eq_of_unlogged h.unlogged_eq
    have hg := gate_eq_of_unlogged h.unlogged_eq
    simp only [call_eq, unlogged, h.now, h.mapper, h.source, hc, hg]
  exact .of_unlogged (h.quickOrderly.call .checkFirst batch)
    (h.inTime.run h.quickOrderly .checkFirst _) hquiet hsame

/-- A batch of quiet calls comes to the same in sessions that differ in their logs at most
and in which all calls are over. -/
theorem scheduled (h : Ahead [] quick strict) (finished : ∀ phase ∈ quick.calls, phase.Finished)
    {batch : List (Nat × Request)} (quiet : ∀ entry ∈ batch, entry.2.Quiet) :
    Agree quick (quick.scheduled .checkFirst batch) strict (strict.scheduled .gateOnly batch) := by
  have hcalled := h.call finished quiet
  have hf : ∀ phase ∈ strict.calls, phase.Finished := by
    rw [calls_eq_of_unlogged h.unlogged_eq]
    exact finished
  have hq := (h.quickOrderly.call .checkFirst batch).clocked_driven .checkFirst
    (Nat.le_of_eq (turnsLeft_call finished .checkFirst batch))
  have hs := (h.strictOrderly.call .gateOnly batch).clocked_driven .gateOnly
    (Nat.le_of_eq (turnsLeft_call hf .gateOnly batch))
  obtain ⟨others, clocked, agree⟩ :=
    hcalled.exists_strict Nat.le_total (fun _ _ _ => Nat.le_trans) hq
  rw [clocked.unique (fun _ _ => Nat.le_antisymm) hs] at agree
  have hbegun : Agree quick (batch.map fun entry => .call entry.1 entry.2)
      strict (batch.map fun entry => .call entry.1 entry.2) :=
    ⟨hcalled.unlogged_eq, by rw [discoveryCalls_call, discoveryCalls_call]⟩
  exact hbegun.append agree

/-- Rounds of quiet calls come to the same in sessions that differ in their logs at most
and in which all calls are over. -/
theorem rounds (h : Ahead [] quick strict) (finished : ∀ phase ∈ quick.calls, phase.Finished)
    {batches : List (List (Nat × Request))}
    (quiet : ∀ batch ∈ batches, ∀ entry ∈ batch, entry.2.Quiet) :
    Agree quick (quick.rounds .checkFirst batches) strict (strict.rounds .gateOnly batches) := by
  induction batches generalizing quick strict with
  | nil => exact ⟨h.unlogged_eq, rfl⟩
  | cons batch rest ih =>
    have hagree := h.scheduled finished (quiet batch List.mem_cons_self)
    have hover := h.quickOrderly.finished_batch finished .checkFirst batch
    have hafter : Ahead [] (quick.batch .checkFirst batch) (strict.batch .gateOnly batch) := by
      rw [batch_eq_run] at hover
      rw [batch_eq_run, batch_eq_run]
      refine .of_unlogged (h.quickOrderly.run .checkFirst _)
        (h.inTime.run h.quickOrderly .checkFirst _) ?_ hagree.left
      intro caller due query hp
      exact absurd (hover _ (List.mem_of_getElem? hp)) (Phase.not_finished_starting _ _)
    have hrest := ih hafter hover fun other hm => quiet other (List.mem_cons_of_mem batch hm)
    rw [batch_eq_run, batch_eq_run] at hrest
    rw [Session.rounds, Session.rounds, batch_eq_run, batch_eq_run]
    exact hagree.append hrest

end Ahead

/-- At every moment of every run:

* while somebody waits for discovery no answer is valid, so no refresh is answered before
  it comes to the gate, and every turn is the same if it does not look;
* if the calls that are to come are quiet, then whichever callers precede which on the
  virtual clock, there is a clocked run in which refreshes look at the last answer first;
  for each such run there is one in which they do not, and the other way round, that comes
  to the same: all calls are answered the same at the same instants, and the same callers
  call discovery at the same instants; any two such runs do, if of two callers one only
  precedes the other;
* if all calls are over, rounds of quiet calls, in which the call made first is preferred,
  come to the same whether refreshes look first or not. -/
theorem fast_check_agrees (admission : Admission) (now : Instant) (mapper : Mapper)
    (source : Source) (moves : List Move) :
    let first := (Session.start now mapper source).run admission moves
    (∀ caller, InPhase Phase.Fetching first.calls caller →
      first.mapper.refresh.cached? first.now = none ∧
      ∀ other, first.turn .checkFirst other = first.turn .gateOnly other) ∧
    ((∀ (caller : Nat) due query,
        first.calls[caller]? = some (.starting due (.query query)) → query.Quiet) →
      ∀ precedes : Nat → Nat → Prop,
        (∀ caller other, precedes caller other ∨ precedes other caller) →
        (∀ caller other third, precedes caller other → precedes other third →
          precedes caller third) →
        (∃ quick, Clocked precedes .checkFirst first quick) ∧
        (∀ quick, Clocked precedes .checkFirst first quick →
          ∃ strict, Clocked precedes .gateOnly first strict ∧ Agree first quick first strict) ∧
        (∀ strict, Clocked precedes .gateOnly first strict →
          ∃ quick, Clocked precedes .checkFirst first quick ∧ Agree first quick first strict) ∧
        ((∀ caller other, precedes caller other → precedes other caller → caller = other) →
          ∀ quick strict, Clocked precedes .checkFirst first quick →
            Clocked precedes .gateOnly first strict → Agree first quick first strict)) ∧
    ((∀ phase ∈ first.calls, phase.Finished) →
      ∀ batches : List (List (Nat × Request)),
        (∀ batch ∈ batches, ∀ entry ∈ batch, entry.2.Quiet) →
        (batches.foldl (Session.batch .gateOnly) first).unlogged =
            (batches.foldl (Session.batch .checkFirst) first).unlogged ∧
          discoveryCalls .gateOnly first (first.rounds .gateOnly batches) =
            discoveryCalls .checkFirst first (first.rounds .checkFirst batches)) := by
  intro first
  have ho : first.Orderly := orderly_run admission now mapper source moves
  have ht : first.InTime :=
    (InTime.start now mapper source).run (orderly_start now mapper source) admission moves
  refine ⟨fun caller waits => ?_, fun quiet precedes total trans => ?_,
    fun finished batches quiet => ?_⟩
  · have hc := ht.cached? ho waits
    exact ⟨hc, turn_of_due hc⟩
  · have h : Ahead [] first first := .of_unlogged ho ht quiet rfl
    refine ⟨ho.exists_clocked total trans .checkFirst,
      fun quick clocked => h.exists_strict total trans clocked,
      fun strict clocked => h.exists_quick clocked,
      fun antisymm quick strict clocked also => ?_⟩
    obtain ⟨others, found, agree⟩ := h.exists_strict total trans clocked
    exact found.unique antisymm also ▸ agree
  · have hquiet : ∀ (caller : Nat) due query,
        first.calls[caller]? = some (.starting due (.query query)) → query.Quiet :=
      fun caller due query hp =>
        absurd (finished _ (List.mem_of_getElem? hp)) (Phase.not_finished_starting _ _)
    have h : Ahead [] first first := .of_unlogged ho ht hquiet rfl
    have hagree := h.rounds finished quiet
    rw [foldl_batch_eq_run, foldl_batch_eq_run]
    exact ⟨hagree.left, hagree.called⟩

/-- Of three refreshes two come first, and the third at the very instant at which the
answer is stored and the gate is handed on: if it looks first it is served at once, else
after the one to which the gate was handed. -/
theorem third_served_at_once :
    let pods : ResourceSet := .ofList [⟨"", "Pod", ["v1"], "pods", true⟩]
    let first := Session.start 0 (.create .ofText 1 .default []) ⟨[⟨.ok pods, 7⟩], 0⟩
    let batch : List (Nat × Request) :=
      [(0, .refresh none), (7, .refresh none), (0, .refresh none)]
    let moves := batch.map fun entry => Move.call entry.1 entry.2
    let called := first.run .checkFirst moves
    let waiting := first.run .checkFirst (moves ++ [.turn 0])
    let quick := [batch].foldl (Session.batch .checkFirst) first
    let strict := [batch].foldl (Session.batch .gateOnly) first
    waiting.mapper.refresh.cached? waiting.now = none ∧
      Agree called (driven .checkFirst 9 called) called (driven .gateOnly 9 called) ∧
      strict.calls = quick.calls ∧ strict.log ≠ quick.log ∧
      discoveryCalls .gateOnly first (first.rounds .gateOnly [batch]) = [(0, 0)] := by
  intro pods first batch moves called waiting quick strict
  obtain ⟨idle, -⟩ := fast_check_agrees .checkFirst 0 (.create .ofText 1 .default [])
    ⟨[⟨.ok pods, 7⟩], 0⟩ (moves ++ [.turn 0])
  obtain ⟨-, matched, -⟩ := fast_check_agrees .checkFirst 0 (.create .ofText 1 .default [])
    ⟨[⟨.ok pods, 7⟩], 0⟩ moves
  obtain ⟨-, -, served⟩ := fast_check_agrees .checkFirst 0 (.create .ofText 1 .default [])
    ⟨[⟨.ok pods, 7⟩], 0⟩ []
  have hwaits : InPhase Phase.Fetching waiting.calls 0 := ⟨_, rfl, trivial⟩
  have hquiet : ∀ (caller : Nat) due query,
      called.calls[caller]? = some (.starting due (.query query)) → query.Quiet := by
    rintro (_ | _ | _ | caller) due query hp <;> cases hp
  have hbatch : ∀ entry ∈ batch, entry.2.Quiet := by
    intro entry hm
    simp only [batch, List.mem_cons, List.not_mem_nil, or_false] at hm
    rcases hm with rfl | rfl | rfl <;> trivial
  have horder : called.Orderly := orderly_run .checkFirst 0 _ _ moves
  have hclocked : ∀ admission, Clocked (· ≤ ·) admission called (driven admission 9 called) :=
    fun admission => horder.clocked_driven admission (Nat.le_refl 9)
  have hserved : strict.unlogged = quick.unlogged ∧
      discoveryCalls .gateOnly first (first.rounds .gateOnly [batch]) =
        discoveryCalls .checkFirst first (first.rounds .checkFirst [batch]) :=
    served nofun [batch] fun other hm => List.mem_singleton.mp hm ▸ hbatch
  have hlog : strict.log ≠ quick.log := by decide +kernel
  have hcalled : discoveryCalls .checkFirst first (first.rounds .checkFirst [batch]) =
      [(0, 0)] := by decide +kernel
  obtain ⟨hidle, -⟩ := idle 0 hwaits
  obtain ⟨-, -, -, hboth⟩ := matched hquiet (· ≤ ·) Nat.le_total fun _ _ _ => Nat.le_trans
  have hdriven := hboth (fun _ _ => Nat.le_antisymm) _ _ (hclocked .checkFirst)
    (hclocked .gateOnly)
  exact ⟨hidle, hdriven, calls_eq_of_unlogged hserved.1, hlog, hserved.2.trans hcalled⟩

end ModelRegistry.Session
