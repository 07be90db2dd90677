import ModelRegistry.Proofs.SessionLogs

/-!
# Running ahead

A session in which refreshes look at the last answer before they come to the gate runs
ahead of one in which they do not: while there is a valid answer it gives that answer at
once, and the other one after the queue. Those still in that queue are the late callers;
nobody waits for discovery then, no time passes until they too have been answered, and
apart from them the two sessions do the same. While there is no valid answer nobody is
late, and the sessions differ in their logs at most.
-/

namespace ModelRegistry

namespace Gate

variable {gate other : Gate}

/-- The holder of a gate is the first in line. -/
theorem Fair.holder_eq (fair : gate.Fair) : gate.holder = gate.line.head? := by
  cases hh : gate.holder with
  | none =>
    rw [fair.line_eq_nil hh]
    rfl
  | some holder =>
    rw [line_of_held hh]
    rfl

/-- The queue of a gate is the line behind the first. -/
theorem Fair.queue_eq (fair : gate.Fair) : gate.queue = gate.line.tail := by
  cases hh : gate.holder with
  | none =>
    rw [fair.line_eq_nil hh]
    exact fair hh
  | some holder =>
    rw [line_of_held hh]
    rfl

/-- Two gates at which the same callers are in line are the same. -/
theorem Fair.eq_of_line (fair : gate.Fair) (also : other.Fair) (h : gate.line = other.line) :
    gate = other := by
  have hh : gate.holder = other.holder := by rw [fair.holder_eq, also.holder_eq, h]
  have hq : gate.queue = other.queue := by rw [fair.queue_eq, also.queue_eq, h]
  obtain ⟨holder, queue⟩ := gate
  obtain ⟨holder', queue'⟩ := other
  cases hh
  cases hq
  rfl

end Gate

namespace Session

variable {admission : Admission} {session other : Session} {caller : Nat}

/-- Nobody waits for discovery since an instant that has not come. -/
def InTime (session : Session) : Prop :=
  ∀ (caller : Nat) turn interval outcome due,
    session.calls[caller]? = some (.fetching turn interval outcome due) → turn ≤ session.now

/-- No time is taken back by a turn. -/
theorem Turned.now_le {after : Session} (h : Turned admission session caller after) :
    session.now ≤ after.now := by
  cases h with
  | asked ready => exact now_le_ask session _
  | _ => exact Nat.le_refl session.now

/-- A call that has not begun after a turn had not begun before. -/
theorem Turned.getElem?_of_starting {after : Session} (h : Turned admission session caller after)
    {place : Nat} {due : Instant} {request : Request}
    (hp : after.calls[place]? = some (.starting due request)) :
    session.calls[place]? = some (.starting due request) := by
  rcases h.calls_eq with rfl | ⟨old, new, hold, hc, hnew⟩
  · exact hp
  · rw [hc] at hp
    by_cases ho : place = caller
    · subst ho
      rw [getElem?_set_of_getElem? hold] at hp
      cases hp
      rcases hnew with ⟨_, _, hn⟩ | ⟨_, hn, -⟩ | ⟨_, -, -, hn⟩ <;> cases hn
    · rw [List.getElem?_set_ne (Ne.symm ho)] at hp
      exact hp

namespace InTime

/-- Before the first call nobody waits. -/
theorem start (now : Instant) (mapper : Mapper) (source : Source) :
    (Session.start now mapper source).InTime := nofun

/-- Whoever waits for discovery does so since an instant that has come, when time passes. -/
theorem pass (h : session.InTime) {time : Instant} (later : session.now ≤ time) :
    { session with now := time : Session }.InTime := fun caller turn interval outcome due hp =>
  Nat.le_trans (h caller turn interval outcome due hp) later

/-- Whatever happens in a turn, whoever waits for discovery does so since an instant
that has come. -/
theorem turned (h : session.InTime) {after : Session}
    (ht : Turned admission session caller after) : after.InTime := by
  intro holder turn interval outcome due hp
  have hn := ht.now_le
  rcases ht.calls_eq with rfl | ⟨old, new, hold, hc, hnew⟩
  · exact h holder turn interval outcome due hp
  · rw [hc] at hp
    by_cases ho : holder = caller
    · subst ho
      rw [getElem?_set_of_getElem? hold] at hp
      cases hp
      rcases hnew with ⟨_, _, hf⟩ | ⟨_, hq, -⟩ | ⟨_, -, -, hf⟩
      · cases hf
      · cases hq
      · cases hf
        exact hn
    · rw [List.getElem?_set_ne (Ne.symm ho)] at hp
      exact Nat.le_trans (h holder turn interval outcome due hp) hn

/-- After every move of a session in order, whoever waits for discovery does so since an
instant that has come. -/
theorem move (h : session.InTime) (orderly : session.Orderly) (admission : Admission)
    (move : Move) : (session.move admission move).InTime := by
  cases move with
  | call delay request =>
    intro caller turn interval outcome due hp
    have hi : InPhase (· = .fetching turn interval outcome due) session.calls caller :=
      (inPhase_concat nofun session.calls caller).mp ⟨_, hp, rfl⟩
    obtain ⟨_, hp', rfl⟩ := hi
    exact h caller turn interval outcome due hp'
  | wait nanos => exact h.pass (Nat.le_add_right session.now nanos)
  | turn caller => exact h.turned (orderly.turned admission caller)

/-- After every run of a session in order, whoever waits for discovery does so since an
instant that has come. -/
theorem run (h : session.InTime) (orderly : session.Orderly) (admission : Admission)
    (moves : List Move) : (session.run admission moves).InTime := by
  induction moves generalizing session with
  | nil => exact h
  | cons head rest ih => exact ih (h.move orderly admission head) (orderly.move admission head)

/-- No answer is valid while somebody waits for discovery. -/
theorem cached? (h : session.InTime) (orderly : session.Orderly)
    (waits : InPhase Phase.Fetching session.calls caller) :
    session.mapper.refresh.cached? session.now = none := by
  obtain ⟨turn, interval, outcome, due, hp⟩ := waits.fetching
  have hd : session.mapper.refresh.Due turn := orderly.due_of_fetching hp
  exact RefreshState.cached?_eq_none_iff.mpr (hd.mono (h caller turn interval outcome due hp))

end InTime

/-- A session in which refreshes look at the last answer first, and one in which they do
not, with the callers that were answered in the first and are in the queue of the second. -/
structure Ahead (late : List Nat) (quick strict : Session) : Prop where
  /-- They have the same time. -/
  now : strict.now = quick.now
  /-- They have the same mapper. -/
  mapper : strict.mapper = quick.mapper
  /-- They have the same discovery source. -/
  source : strict.source = quick.source
  /-- The first session is in order. -/
  quickOrderly : quick.Orderly
  /-- The second session is in order. -/
  strictOrderly : strict.Orderly
  /-- Whoever waits for discovery does so since an instant that has come. -/
  inTime : quick.InTime
  /-- The late callers are in line behind all others. -/
  line : strict.gate.line = quick.gate.line ++ late
  /-- All other calls have come as far. -/
  same : ∀ caller, caller ∉ late → strict.calls[caller]? = quick.calls[caller]?
  /-- The late callers were served the stored answer now, and it is still valid. -/
  served : ∀ caller ∈ late, ∃ interval resources,
    strict.calls[caller]? = some (.queued interval) ∧
    quick.calls[caller]? = some (.finished quick.now (.resources resources)) ∧
    quick.mapper.refresh.cached? quick.now = some resources
  /-- The calls that are to come are quiet. -/
  quiet : ∀ (caller : Nat) due query,
    quick.calls[caller]? = some (.starting due (.query query)) → query.Quiet

namespace Ahead

variable {late : List Nat} {quick strict : Session}

/-- Of sessions that differ in their logs at most one is ahead, and nobody is late. -/
theorem of_unlogged (orderly : quick.Orderly) (inTime : quick.InTime)
    (quiet : ∀ (caller : Nat) due query,
      quick.calls[caller]? = some (.starting due (.query query)) → query.Quiet)
    (h : strict.unlogged = quick.unlogged) : Ahead [] quick strict where
  now := (congrArg Session.now h :)
  mapper := (congrArg Session.mapper h :)
  source := (congrArg Session.source h :)
  quickOrderly := orderly
  strictOrderly := orderly.of_unlogged h
  inTime := inTime
  line := by rw [gate_eq_of_unlogged h, List.append_nil]
  same caller _ := by rw [calls_eq_of_unlogged h]
  served := nofun
  quiet := quiet

/-- If nobody is late, the sessions differ in their logs at most. -/
theorem unlogged_eq (h : Ahead [] quick strict) : strict.unlogged = quick.unlogged := by
  have hl := h.line
  rw [List.append_nil] at hl
  have hg : strict.gate = quick.gate :=
    h.strictOrderly.serves.fair.eq_of_line h.quickOrderly.serves.fair hl
  have hc : strict.calls = quick.calls :=
    List.ext_getElem? fun caller => h.same caller List.not_mem_nil
  rw [unlogged, unlogged, h.now, h.mapper, hg, h.source, hc]

/-- Nobody is late when no answer is valid. -/
theorem late_eq_nil (h : Ahead late quick strict)
    (due : quick.mapper.refresh.cached? quick.now = none) : late = [] := by
  refine List.eq_nil_iff_forall_not_mem.mpr fun caller hm => ?_
  obtain ⟨_, resources, -, -, hc⟩ := h.served caller hm
  rw [due] at hc
  cases hc

/-- The late callers are not in line in the session that is ahead. -/
theorem not_mem_line (h : Ahead late quick strict) {caller : Nat} (hm : caller ∈ late) :
    caller ∉ quick.gate.line := by
  obtain ⟨_, _, -, hq, -⟩ := h.served caller hm
  rw [h.quickOrderly.serves.mem_line, inPhase_iff hq]
  exact id

/-- The gate is held by the same caller, as long as somebody is in line in the session
that is ahead. -/
theorem holder_eq (h : Ahead late quick strict) (lined : quick.gate.line ≠ []) :
    strict.gate.holder = quick.gate.holder := by
  rw [h.strictOrderly.serves.fair.holder_eq, h.quickOrderly.serves.fair.holder_eq, h.line]
  cases hl : quick.gate.line with
  | nil => exact absurd hl lined
  | cons head rest => rfl

/-- In the phase that a call has in the session that is ahead, it can go on at the same
instant in the other. -/
theorem due?_eq (h : Ahead late quick strict) {caller : Nat} {phase : Phase}
    (hp : quick.calls[caller]? = some phase) :
    strict.due? caller phase = quick.due? caller phase := by
  cases phase with
  | queued interval =>
    have hl : caller ∈ quick.gate.line :=
      (h.quickOrderly.serves.mem_line caller).mpr ⟨_, hp, trivial⟩
    simp only [due?, h.holder_eq (List.ne_nil_of_mem hl)]
  | _ => rfl

/-- A call that is not late can go on if it can in the session that is ahead. -/
theorem ready?_eq (h : Ahead late quick strict) {caller : Nat} (hl : caller ∉ late) :
    strict.ready? caller = quick.ready? caller := by
  rw [ready?, ready?, h.same caller hl, h.now]
  cases hp : quick.calls[caller]? with
  | none => rfl
  | some phase => simp only [Option.filter_some, h.due?_eq hp]

/-- Time passes when nobody is late. -/
theorem pass (h : Ahead late quick strict) {time : Instant} (later : quick.now ≤ time)
    (still : late = [] ∨ time = quick.now) :
    Ahead late { quick with now := time } { strict with now := time } where
  now := rfl
  mapper := h.mapper
  source := h.source
  quickOrderly := h.quickOrderly.pass time
  strictOrderly := h.strictOrderly.pass time
  inTime := h.inTime.pass later
  line := h.line
  same := h.same
  served caller hm := by
    rcases still with rfl | rfl
    · cases hm
    · exact h.served caller hm
  quiet := h.quiet

/-- The calls that are to come after a turn are quiet. -/
theorem quiet_turn (h : Ahead late quick strict) (caller : Nat) :
    ∀ (other : Nat) due query,
      (quick.turn .checkFirst caller).calls[other]? = some (.starting due (.query query)) →
      query.Quiet := fun other due query hp =>
  h.quiet other due query
    ((h.quickOrderly.turned .checkFirst caller).getElem?_of_starting hp)

/-- A call that is answered the same in both sessions leaves the first one ahead, if the
late callers stay in line behind the others. -/
theorem answered (h : Ahead late quick strict) {caller : Nat} (hl : caller ∉ late)
    {old : Phase} (hp : quick.calls[caller]? = some old) {mapper mapper' : Mapper}
    {answer : Answer} {gate gate' : Gate} {log log' : List Event} (alike : mapper' = mapper)
    (kept : mapper.refresh = quick.mapper.refresh) (line : gate'.line = gate.line ++ late)
    (hq : quick.turn .checkFirst caller =
      { quick with
        mapper := mapper
        gate := gate
        calls := quick.calls.set caller (.finished quick.now answer)
        log := log })
    (hs : strict.turn .gateOnly caller =
      { strict with
        mapper := mapper'
        gate := gate'
        calls := strict.calls.set caller (.finished strict.now answer)
        log := log' }) :
    Ahead late (quick.turn .checkFirst caller) (strict.turn .gateOnly caller) := by
  have ht := h.quickOrderly.turned .checkFirst caller
  have hqo : (quick.turn .checkFirst caller).Orderly := h.quickOrderly.of_turned ht
  have hti : (quick.turn .checkFirst caller).InTime := h.inTime.turned ht
  have hquiet := h.quiet_turn caller
  have hso : (strict.turn .gateOnly caller).Orderly :=
    h.strictOrderly.of_turned (h.strictOrderly.turned .gateOnly caller)
  rw [hq] at hqo hti hquiet ⊢
  rw [hs] at hso ⊢
  refine
    { now := h.now
      mapper := alike
      source := h.source
      quickOrderly := hqo
      strictOrderly := hso
      inTime := hti
      line := line
      same := ?_
      served := ?_
      quiet := hquiet }
  · intro other ho
    dsimp only
    by_cases he : other = caller
    · subst he
      rw [getElem?_set_of_getElem? hp, getElem?_set_of_getElem? ((h.same other ho).trans hp),
        h.now]
    · rw [List.getElem?_set_ne (Ne.symm he), List.getElem?_set_ne (Ne.symm he), h.same other ho]
  · intro other hm
    have he : caller ≠ other := fun he => hl (he ▸ hm)
    dsimp only
    rw [List.getElem?_set_ne he, List.getElem?_set_ne he, kept]
    exact h.served other hm

/-- A refresh that is served at once in the session that is ahead and queues in the other
is late. -/
theorem joined (h : Ahead late quick strict) {caller holder : Nat} (hl : caller ∉ late)
    {due : Instant} {asked : Option Duration} {resources : ResourceSet}
    (ready : quick.ready? caller = some (.starting due (.refresh asked)))
    (cached : quick.mapper.refresh.cached? quick.now = some resources)
    (held : strict.gate.holder = some holder) :
    Ahead (late ++ [caller]) (quick.turn .checkFirst caller) (strict.turn .gateOnly caller) := by
  have hp := getElem?_of_ready? ready
  have hready : strict.ready? caller = some (.starting due (.refresh asked)) :=
    (h.ready?_eq hl).trans ready
  have ht := h.quickOrderly.turned .checkFirst caller
  have hqo : (quick.turn .checkFirst caller).Orderly := h.quickOrderly.of_turned ht
  have hti : (quick.turn .checkFirst caller).InTime := h.inTime.turned ht
  have hso : (strict.turn .gateOnly caller).Orderly :=
    h.strictOrderly.of_turned (h.strictOrderly.turned .gateOnly caller)
  have hquiet := h.quiet_turn caller
  have hs : strict.turn .gateOnly caller = _ :=
    turn_of_held h.strictOrderly.inside hready nofun held
  rw [turn_of_served ready cached] at hqo hti hquiet ⊢
  rw [hs] at hso ⊢
  refine
    { now := h.now
      mapper := h.mapper
      source := h.source
      quickOrderly := hqo
      strictOrderly := hso
      inTime := hti
      line := ?_
      same := ?_
      served := ?_
      quiet := hquiet }
  · dsimp only
    rw [Gate.line_of_held rfl, ← List.append_assoc, ← h.line, Gate.line_of_held held,
      List.cons_append]
  · intro other ho
    rw [List.mem_append, List.mem_singleton, not_or] at ho
    dsimp only
    rw [List.getElem?_set_ne (Ne.symm ho.2), List.getElem?_set_ne (Ne.symm ho.2),
      h.same other ho.1]
  · intro other hm
    dsimp only
    rcases List.mem_append.mp hm with hm | hm
    · have he : caller ≠ other := fun he => hl (he ▸ hm)
      rw [List.getElem?_set_ne he, List.getElem?_set_ne he]
      exact h.served other hm
    · cases List.mem_singleton.mp hm
      exact ⟨_, resources, getElem?_set_of_getElem? ((h.same caller hl).trans hp) _,
        getElem?_set_of_getElem? hp _, cached⟩

/-- While an answer is valid, a turn of a call that is not late leaves the first session
ahead. -/
theorem turn_of_cached (h : Ahead late quick strict) {caller : Nat} (hl : caller ∉ late)
    {resources : ResourceSet}
    (cached : quick.mapper.refresh.cached? quick.now = some resources) :
    ∃ later, Ahead later (quick.turn .checkFirst caller) (strict.turn .gateOnly caller) := by
  have hcached : strict.mapper.refresh.cached? strict.now = some resources := by
    rw [h.mapper, h.now, cached]
  have hready := h.ready?_eq hl
  cases hr : quick.ready? caller with
  | none =>
    rw [turn_of_not_ready _ hr, turn_of_not_ready _ (hready.trans hr)]
    exact ⟨late, h⟩
  | some phase =>
    have hp := getElem?_of_ready? hr
    rw [hr] at hready
    cases phase with
    | starting due request =>
      cases request with
      | query query =>
        obtain ⟨registered, answer, kept, hq, hs⟩ := turn_of_quiet (h.quiet caller due query hp)
          h.mapper h.source hr hready .checkFirst .gateOnly
        exact ⟨late, h.answered hl hp rfl kept h.line hq hs⟩
      | refresh asked =>
        cases hg : strict.gate.holder with
        | none =>
          have hline : strict.gate.leave.line = quick.gate.line ++ late := by
            rw [h.strictOrderly.serves.fair.leave_eq hg, h.line]
          exact ⟨late, h.answered hl hp h.mapper rfl hline (turn_of_served hr cached)
            (turn_of_took (.atOnce hready nofun hg) hcached)⟩
        | some holder => exact ⟨late ++ [caller], h.joined hl hr cached hg⟩
    | queued interval =>
      obtain ⟨-, held⟩ := ready?_queued_iff.mp hr
      obtain ⟨-, held'⟩ := ready?_queued_iff.mp hready
      have hqueue := h.line
      rw [Gate.line_of_held held, Gate.line_of_held held'] at hqueue
      have hline : strict.gate.leave.line = quick.gate.leave.line ++ late := by
        rw [Gate.line_leave, Gate.line_leave]
        exact (List.cons.inj hqueue).2
      exact ⟨late, h.answered hl hp h.mapper rfl hline (turn_of_took (.handed hr) cached)
        (turn_of_took (.handed hready) hcached)⟩
    | fetching turn interval outcome due =>
      -- Nobody waits for discovery while an answer is valid.
      have hn := h.inTime.cached? h.quickOrderly ⟨_, hp, trivial⟩
      rw [cached] at hn
      cases hn
    | finished time answer =>
      obtain ⟨-, due, hd, -⟩ := ready?_eq_some_iff.mp hr
      cases hd

/-- A turn of a call that is not late leaves the first session ahead. -/
theorem turn (h : Ahead late quick strict) {caller : Nat} (hl : caller ∉ late) :
    ∃ later, Ahead later (quick.turn .checkFirst caller) (strict.turn .gateOnly caller) := by
  cases hc : quick.mapper.refresh.cached? quick.now with
  | some resources => exact h.turn_of_cached hl hc
  | none =>
    -- Nobody is late, and a look at the last answer is in vain.
    obtain rfl := h.late_eq_nil hc
    have ht := h.quickOrderly.turned .checkFirst caller
    have hs : (strict.turn .gateOnly caller).unlogged =
        (quick.turn .checkFirst caller).unlogged := by
      rw [turn_of_due hc]
      exact unlogged_turn h.unlogged_eq .gateOnly caller
    exact ⟨[], .of_unlogged (h.quickOrderly.of_turned ht) (h.inTime.turned ht)
      (h.quiet_turn caller) hs⟩

/-- A late caller can go on when it is the first in line: then nobody is in line in the
session that is ahead. -/
theorem due?_late (h : Ahead late quick strict) {caller : Nat} (hm : caller ∈ late)
    {phase : Phase} {due : Instant} (hp : strict.calls[caller]? = some phase)
    (hd : strict.due? caller phase = some due) :
    quick.gate.line = [] ∧ (∃ rest, late = caller :: rest) ∧ due = 0 := by
  obtain ⟨interval, _, hs, -, -⟩ := h.served caller hm
  rw [hs] at hp
  cases hp
  obtain ⟨held, rfl⟩ : strict.gate.holder = some caller ∧ 0 = due := by
    rw [due?] at hd
    split at hd
    · rename_i held
      exact ⟨held, Option.some.inj hd⟩
    · cases hd
  have hline := h.line
  rw [Gate.line_of_held held] at hline
  cases hl : quick.gate.line with
  | nil =>
    rw [hl, List.nil_append] at hline
    exact ⟨rfl, ⟨_, hline.symm⟩, rfl⟩
  | cons head rest =>
    rw [hl] at hline
    have hn := h.not_mem_line hm
    rw [hl, (List.cons.inj hline).1] at hn
    exact absurd List.mem_cons_self hn

/-- When nobody is in line in the session that is ahead, the gate was handed to the first
of the late callers. -/
theorem held_late {head : Nat} {rest : List Nat} (h : Ahead (head :: rest) quick strict)
    (free : quick.gate.line = []) : strict.gate.holder = some head := by
  rw [h.strictOrderly.serves.fair.holder_eq, h.line, free]
  rfl

/-- The first of the late callers is answered too, and no discovery is called for it. -/
theorem catchUp {head : Nat} {rest : List Nat} (h : Ahead (head :: rest) quick strict)
    (free : quick.gate.line = []) :
    Ahead rest quick (strict.turn .gateOnly head) ∧
      (strict.turn .gateOnly head).source = strict.source := by
  obtain ⟨interval, resources, hs, hq, hc⟩ := h.served head List.mem_cons_self
  have hheld := h.held_late free
  have hcached : strict.mapper.refresh.cached? strict.now = some resources := by
    rw [h.mapper, h.now, hc]
  have hready : strict.ready? head = some (.queued interval) :=
    ready?_queued_iff.mpr ⟨hs, hheld⟩
  have hline := h.line
  have hnodup := h.strictOrderly.serves.nodup
  rw [hline, free, List.nil_append] at hnodup
  rw [free, List.nil_append, Gate.line_of_held hheld] at hline
  have hso : (strict.turn .gateOnly head).Orderly :=
    h.strictOrderly.of_turned (h.strictOrderly.turned .gateOnly head)
  have ht : strict.turn .gateOnly head = _ := turn_of_took (.handed hready) hcached
  rw [ht] at hso ⊢
  refine ⟨?_, rfl⟩
  refine
    { now := h.now
      mapper := h.mapper
      source := h.source
      quickOrderly := h.quickOrderly
      strictOrderly := hso
      inTime := h.inTime
      line := ?_
      same := ?_
      served := ?_
      quiet := h.quiet }
  · dsimp only
    rw [Gate.line_leave, free, (List.cons.inj hline).2, List.nil_append]
  · intro other ho
    dsimp only
    by_cases he : other = head
    · subst he
      rw [getElem?_set_of_getElem? hs, hq, h.now]
    · rw [List.getElem?_set_ne (Ne.symm he)]
      exact h.same other fun hm => (List.mem_cons.mp hm).elim he ho
  · intro other hm
    have he : head ≠ other := fun he => (List.nodup_cons.mp hnodup).1 (he ▸ hm)
    dsimp only
    rw [List.getElem?_set_ne he]
    exact h.served other (List.mem_cons_of_mem head hm)

end Ahead

end Session

end ModelRegistry
