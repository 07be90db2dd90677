import ModelRegistry.Proofs.RefreshDeadlines
import ModelRegistry.Proofs.SessionTurns

/-!
# Order at the gate

The callers at the gate stand in one line: the holder first and the queue behind.
In every session that a run reaches, the line holds exactly the refreshes that
have come to the gate and not left it, each once; only the first of them can be
waiting for discovery; and while it waits, the answer that was stored when it got
its turn stays due. All of this is one invariant, kept by every move, whatever
the calls are and in whatever order the callers have their turns.
-/

namespace ModelRegistry

namespace Gate

/-- The callers at a gate: the holder and then the queue. -/
def line (gate : Gate) : List Nat := gate.holder.toList ++ gate.queue

/-- Nobody is at the free gate. -/
theorem line_free : free.line = [] := rfl

/-- A gate at which nobody is in line is free. -/
theorem eq_free_of_line {gate : Gate} (h : gate.line = []) : gate = free := by
  obtain ⟨holder, queue⟩ := gate
  cases holder with
  | none =>
    have hq : queue = [] := h
    rw [hq]
    rfl
  | some holder => cases h

/-- The holder is the first in line. -/
theorem line_of_held {gate : Gate} {caller : Nat} (h : gate.holder = some caller) :
    gate.line = caller :: gate.queue := by
  rw [line, h]
  rfl

/-- Nobody is in line at a gate that is free. -/
theorem Fair.line_eq_nil {gate : Gate} (fair : gate.Fair) (h : gate.holder = none) :
    gate.line = [] := by
  rw [line, h, fair h]
  rfl

/-- Whoever comes to a gate is the last in line. -/
theorem Fair.line_arrive {gate : Gate} (fair : gate.Fair) (caller : Nat) :
    (gate.arrive caller).line = gate.line ++ [caller] := by
  cases hh : gate.holder with
  | none =>
    rw [fair.line_eq_nil hh]
    simp only [Gate.arrive, hh, line, fair hh]
    rfl
  | some holder => simp only [Gate.arrive, hh, line, List.append_assoc]

/-- When the holder leaves, the queue stays in line. -/
theorem line_leave (gate : Gate) : gate.leave.line = gate.queue := by
  rw [line, leave]
  cases gate.queue <;> rfl

/-- Nothing changes when nobody leaves a free gate. -/
theorem Fair.leave_eq {gate : Gate} (fair : gate.Fair) (h : gate.holder = none) :
    gate.leave = gate := by
  obtain ⟨holder, queue⟩ := gate
  have hh : holder = none := h
  have hq : queue = [] := fair h
  subst hh hq
  rfl

end Gate

/-- A refresh in this phase has come to the gate and not left it. -/
def Phase.AtGate : Phase → Prop
  | .queued _ | .fetching .. => True
  | _ => False

/-- A refresh in this phase waits for a discovery response. -/
def Phase.Fetching : Phase → Prop
  | .fetching .. => True
  | _ => False

/-- A refresh in this phase does not call discovery any more. -/
def Phase.Spent : Phase → Prop
  | .fetching .. | .finished .. => True
  | _ => False

/-- Whoever waits for a discovery response is at the gate. -/
theorem Phase.Fetching.atGate {phase : Phase} (h : phase.Fetching) : phase.AtGate := by
  cases phase with
  | fetching turn interval outcome due => trivial
  | starting due request => exact h
  | queued interval => trivial
  | finished time answer => exact h

/-- A call that was made and goes to another phase is in that phase. -/
theorem getElem?_set_of_getElem? {calls : List Phase} {caller : Nat} {old : Phase}
    (h : calls[caller]? = some old) (new : Phase) : (calls.set caller new)[caller]? = some new :=
  List.getElem?_set_self (List.getElem?_eq_some_iff.mp h).1

/-- A call is in a phase of a kind. -/
def InPhase (kind : Phase → Prop) (calls : List Phase) (caller : Nat) : Prop :=
  ∃ phase, calls[caller]? = some phase ∧ kind phase

/-- A call is in a phase of a kind exactly if its phase is of that kind. -/
theorem inPhase_iff {kind : Phase → Prop} {calls : List Phase} {caller : Nat} {phase : Phase}
    (h : calls[caller]? = some phase) : InPhase kind calls caller ↔ kind phase := by
  simp [InPhase, h]

/-- Whoever waits for a discovery response has been at it since some instant. -/
theorem InPhase.fetching {calls : List Phase} {caller : Nat}
    (h : InPhase Phase.Fetching calls caller) :
    ∃ turn interval outcome due,
      calls[caller]? = some (.fetching turn interval outcome due) := by
  obtain ⟨phase, hp, hf⟩ := h
  cases phase with
  | fetching turn interval outcome due => exact ⟨turn, interval, outcome, due, hp⟩
  | starting due request => exact hf.elim
  | queued interval => exact hf.elim
  | finished time answer => exact hf.elim

/-- Whoever is at the gate is in the queue or waits for a discovery response. -/
theorem InPhase.atGate {calls : List Phase} {caller : Nat}
    (h : InPhase Phase.AtGate calls caller) :
    (∃ interval, calls[caller]? = some (.queued interval)) ∨
      ∃ turn interval outcome due,
        calls[caller]? = some (.fetching turn interval outcome due) := by
  obtain ⟨phase, hp, ha⟩ := h
  cases phase with
  | queued interval => exact .inl ⟨interval, hp⟩
  | fetching turn interval outcome due => exact .inr ⟨turn, interval, outcome, due, hp⟩
  | starting due request => exact ha.elim
  | finished time answer => exact ha.elim

/-- A call that goes to another phase is in that phase, and no other call changes. -/
theorem inPhase_set {kind : Phase → Prop} {calls : List Phase} {caller other : Nat}
    {old : Phase} (h : calls[caller]? = some old) (new : Phase) :
    InPhase kind (calls.set caller new) other ↔
      (other = caller ∧ kind new) ∨ (other ≠ caller ∧ InPhase kind calls other) := by
  by_cases ho : other = caller
  · subst ho
    simp [InPhase, getElem?_set_of_getElem? h]
  · simp [InPhase, List.getElem?_set_ne (Ne.symm ho), ho]

/-- A new call changes no phase but its own. -/
theorem inPhase_concat {kind : Phase → Prop} {new : Phase} (h : ¬kind new) (calls : List Phase)
    (caller : Nat) : InPhase kind (calls ++ [new]) caller ↔ InPhase kind calls caller := by
  rcases Nat.lt_trichotomy caller calls.length with hl | rfl | hl
  · rw [InPhase, List.getElem?_append_left hl]
    rfl
  · simp [InPhase, h]
  · have hn : (calls ++ [new]).length ≤ caller := by
      rw [List.length_append]
      exact hl
    simp [InPhase, List.getElem?_eq_none hn, List.getElem?_eq_none (Nat.le_of_lt hl)]

/-- A gate serves some calls in order. -/
structure Gate.Serves (gate : Gate) (calls : List Phase) : Prop where
  /-- Nobody waits at a free gate. -/
  fair : gate.Fair
  /-- Nobody is twice in line. -/
  nodup : gate.line.Nodup
  /-- In line are exactly those who have come to the gate and not left it. -/
  mem_line : ∀ caller, caller ∈ gate.line ↔ InPhase Phase.AtGate calls caller
  /-- Only the holder of the gate waits for discovery. -/
  holds : ∀ caller, InPhase Phase.Fetching calls caller → gate.holder = some caller

namespace Gate.Serves

variable {gate : Gate} {calls : List Phase} {caller : Nat} {old new : Phase}

/-- A free gate serves no calls at all. -/
theorem start : Gate.free.Serves [] where
  fair := fair_free
  nodup := List.nodup_nil
  mem_line := by simp [line_free, InPhase]
  holds := by simp [InPhase]

/-- Whoever holds the gate has come to it. -/
theorem atGate_of_holder (serves : gate.Serves calls) (h : gate.holder = some caller) :
    InPhase Phase.AtGate calls caller := by
  rw [← serves.mem_line, line_of_held h]
  exact List.mem_cons_self

/-- Where no call is at the gate, the gate is free. -/
theorem eq_free (serves : gate.Serves calls)
    (away : ∀ caller, ¬InPhase Phase.AtGate calls caller) : gate = free :=
  eq_free_of_line <| List.eq_nil_iff_forall_not_mem.mpr fun caller hm =>
    away caller ((serves.mem_line caller).mp hm)

/-- The gate serves the calls as before when one that is not at the gate goes on
without coming to it. -/
theorem pass (serves : gate.Serves calls) (h : calls[caller]? = some old)
    (away : ¬old.AtGate) (stays : ¬new.AtGate) : gate.Serves (calls.set caller new) where
  fair := serves.fair
  nodup := serves.nodup
  mem_line other := by
    rw [serves.mem_line, inPhase_set h]
    constructor
    · intro hi
      refine .inr ⟨?_, hi⟩
      rintro rfl
      exact away ((inPhase_iff h).mp hi)
    · rintro (⟨-, hn⟩ | ⟨-, hi⟩)
      · exact absurd hn stays
      · exact hi
  holds other hf := by
    rcases (inPhase_set h new).mp hf with ⟨-, hn⟩ | ⟨-, hi⟩
    · exact absurd hn.atGate stays
    · exact serves.holds other hi

/-- The gate serves the calls when one comes to it; it waits for discovery only
if it found the gate free. -/
theorem arrive (serves : gate.Serves calls) (h : calls[caller]? = some old)
    (away : ¬old.AtGate) (comes : new.AtGate) (free : new.Fetching → gate.holder = none) :
    (gate.arrive caller).Serves (calls.set caller new) where
  fair := .arrive caller
  nodup := by
    rw [serves.fair.line_arrive, List.nodup_append]
    refine ⟨serves.nodup, List.nodup_cons.mpr ⟨List.not_mem_nil, List.nodup_nil⟩, ?_⟩
    intro first hf last hl he
    rw [List.mem_singleton.mp hl] at he
    exact away ((inPhase_iff h).mp ((serves.mem_line caller).mp (he ▸ hf)))
  mem_line other := by
    rw [serves.fair.line_arrive, List.mem_append, List.mem_singleton, serves.mem_line,
      inPhase_set h]
    by_cases ho : other = caller
    · simp [ho, comes]
    · simp [ho]
  holds other hf := by
    rcases (inPhase_set h new).mp hf with ⟨rfl, hn⟩ | ⟨-, hi⟩
    · simp only [Gate.arrive, free hn]
    · simp only [Gate.arrive, serves.holds other hi]

/-- The gate serves the calls when its holder goes on without leaving it. -/
theorem stay (serves : gate.Serves calls) (h : calls[caller]? = some old)
    (held : gate.holder = some caller) (stays : new.AtGate) :
    gate.Serves (calls.set caller new) where
  fair := serves.fair
  nodup := serves.nodup
  mem_line other := by
    rw [serves.mem_line, inPhase_set h]
    by_cases ho : other = caller
    · subst ho
      simp [stays, serves.atGate_of_holder held]
    · simp [ho]
  holds other hf := by
    rcases (inPhase_set h new).mp hf with ⟨rfl, -⟩ | ⟨-, hi⟩
    · exact held
    · exact serves.holds other hi

/-- When the holder of the gate does not wait for discovery any more, nobody does. -/
theorem quiet (serves : gate.Serves calls) (h : calls[caller]? = some old)
    (held : gate.holder = some caller) (ends : ¬new.Fetching) (other : Nat) :
    ¬InPhase Phase.Fetching (calls.set caller new) other := by
  intro hf
  rcases (inPhase_set h new).mp hf with ⟨-, hn⟩ | ⟨ho, hi⟩
  · exact ends hn
  · have hh := serves.holds other hi
    rw [held] at hh
    exact ho (Option.some.inj hh).symm

/-- The gate serves the calls when its holder leaves it; the next in line holds
it then. -/
theorem leave (serves : gate.Serves calls) (h : calls[caller]? = some old)
    (held : gate.holder = some caller) (leaves : ¬new.AtGate) :
    gate.leave.Serves (calls.set caller new) where
  fair := .leave gate
  nodup := by
    have hn := serves.nodup
    rw [line_of_held held] at hn
    rw [line_leave]
    exact (List.nodup_cons.mp hn).2
  mem_line other := by
    have hn := serves.nodup
    rw [line_of_held held] at hn
    have hm := serves.mem_line other
    rw [line_of_held held, List.mem_cons] at hm
    rw [line_leave, inPhase_set h]
    by_cases ho : other = caller
    · subst ho
      simp [leaves, (List.nodup_cons.mp hn).1]
    · simp [ho, ← hm]
  holds other hf := absurd hf (serves.quiet h held (fun hn => leaves hn.atGate) other)

/-- The gate serves the calls when a new one is made. -/
theorem call (serves : gate.Serves calls) (away : ¬new.AtGate) :
    gate.Serves (calls ++ [new]) where
  fair := serves.fair
  nodup := serves.nodup
  mem_line caller := by rw [serves.mem_line, inPhase_concat away]
  holds caller hf :=
    serves.holds caller ((inPhase_concat (fun h => away h.atGate) calls caller).mp hf)

end Gate.Serves

end ModelRegistry
