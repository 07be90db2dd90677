/-!
# The gate

A gate lets one caller pass at a time. Whoever finds it free holds it; the
others queue, and a caller that leaves hands the gate to the head of the queue,
so the gate is obtained first come, first served. A gate that was handed over
is held even before its new holder goes on.
-/

namespace ModelRegistry

/-- A gate for callers known by number. -/
structure Gate where
  /-- Who holds the gate. -/
  holder : Option Nat
  /-- Who waits for it, the longest-waiting caller first. -/
  queue : List Nat
deriving DecidableEq

namespace Gate

/-- The free gate. -/
def free : Gate := ⟨none, []⟩

/-- A caller comes to the gate: it holds a free gate and queues for another. -/
def arrive (gate : Gate) (caller : Nat) : Gate :=
  match gate.holder with
  | none => { gate with holder := some caller }
  | some _ => { gate with queue := gate.queue ++ [caller] }

/-- The holder leaves and hands the gate to the head of the queue. -/
def leave (gate : Gate) : Gate := ⟨gate.queue.head?, gate.queue.tail⟩

/-- Nobody waits at a free gate. -/
def Fair (gate : Gate) : Prop := gate.holder = none → gate.queue = []

/-- The free gate has no queue. -/
theorem fair_free : free.Fair := fun _ => rfl

/-- Coming to a gate keeps it so that nobody waits while it is free. -/
theorem Fair.arrive {gate : Gate} (caller : Nat) : (gate.arrive caller).Fair := by
  intro h
  unfold Gate.arrive at h
  split at h
  · exact absurd h (Option.some_ne_none caller)
  · rename_i holder hh
    rw [hh] at h
    exact absurd h (Option.some_ne_none holder)

/-- Handing over keeps a gate so that nobody waits while it is free. -/
theorem Fair.leave (gate : Gate) : gate.leave.Fair := by
  intro h
  cases hq : gate.queue with
  | nil => simp [Gate.leave, hq]
  | cons head rest => simp [Gate.leave, hq] at h

end Gate

end ModelRegistry
