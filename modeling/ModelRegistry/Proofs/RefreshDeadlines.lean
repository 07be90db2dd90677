import ModelRegistry.Mapper

/-!
# Deadlines

An answer is due for renewal once its deadline has come, or if there is none.
The deadline of a new answer is never earlier than the instant at which its
refresh got its turn, so an answer that replaces a due one gets its own deadline
and not the old one. Whether a longer interval gives a later deadline is not
decided here.
-/

namespace ModelRegistry.RefreshState

/-- No answer is valid: there is none, or its deadline has come. -/
def Due (state : RefreshState) (now : Instant) : Prop :=
  ∀ deadline, state.deadline = some deadline → deadline ≤ now

/-- There is an answer, and it is valid until an instant at least. -/
def ValidUntil (state : RefreshState) (instant : Instant) : Prop :=
  ∃ deadline, state.deadline = some deadline ∧ instant ≤ deadline

/-- Before the first answer it is due. -/
theorem due_start (now : Instant) : start.Due now := nofun

/-- What is due stays due. -/
theorem Due.mono {state : RefreshState} {now later : Instant} (h : state.Due now)
    (passed : now ≤ later) : state.Due later := fun deadline hd =>
  Nat.le_trans (h deadline hd) passed

/-- No answer is served exactly when it is due. -/
theorem cached?_eq_none_iff {state : RefreshState} {now : Instant} :
    state.cached? now = none ↔ state.Due now := by
  cases hd : state.deadline with
  | none => simp [cached?, Due, hd]
  | some deadline => simp [cached?, Due, hd]

/-- An answer that is valid until an instant is not due before. -/
theorem ValidUntil.le_of_due {state : RefreshState} {instant now : Instant}
    (h : state.ValidUntil instant) (due : state.Due now) : instant ≤ now := by
  obtain ⟨deadline, hd, hi⟩ := h
  exact Nat.le_trans hi (due deadline hd)

/-- The deadline that the platform clock holds comes an interval after the turn. -/
theorem deadlineAfter_of_le {turn : Instant} {interval : Duration}
    (h : turn + interval.nanos ≤ Instant.latest) :
    deadlineAfter turn interval = turn + interval.nanos := by
  rw [deadlineAfter, deadline?, Instant.add?, if_pos h]
  rfl

/-- A deadline that the platform clock does not hold is set far ahead. -/
theorem deadlineAfter_of_lt {turn : Instant} {interval : Duration}
    (h : Instant.latest < turn + interval.nanos) :
    deadlineAfter turn interval = turn + farFuture := by
  rw [deadlineAfter, deadline?, Instant.add?, if_neg (Nat.not_le.mpr h), Option.none_or]
  split <;> rfl

/-- The platform clock holds no deadline exactly if it holds neither the instant an interval
later nor the one far ahead. -/
theorem deadline?_eq_none_iff {turn : Instant} {interval : Duration} :
    deadline? turn interval = none ↔
      Instant.latest < turn + interval.nanos ∧ Instant.latest < turn + farFuture := by
  rw [deadline?, Option.or_eq_none_iff, Instant.add?, ite_eq_right_iff, ite_eq_right_iff]
  simp only [reduceCtorEq, imp_false, Nat.not_le]

/-- A deadline that the platform clock holds is the one that is set. -/
theorem deadlineAfter_of_eq_some {turn deadline : Instant} {interval : Duration}
    (h : deadline? turn interval = some deadline) : deadlineAfter turn interval = deadline := by
  rw [deadlineAfter, h, Option.getD_some]

/-- A deadline does not come before the turn from which it counts. -/
theorem le_deadlineAfter (turn : Instant) (interval : Duration) :
    turn ≤ deadlineAfter turn interval := by
  rcases Nat.lt_or_ge Instant.latest (turn + interval.nanos) with unheld | held
  · rw [deadlineAfter_of_lt unheld]
    exact Nat.le_add_right turn farFuture
  · rw [deadlineAfter_of_le held]
    exact Nat.le_add_right turn interval.nanos

/-- An answer that replaces a due one gets its own deadline. -/
theorem commit_of_due {state : RefreshState} {turn : Instant} (h : state.Due turn)
    (interval : Duration) (resources : ResourceSet) :
    state.commit turn interval resources =
      ⟨resources, some (deadlineAfter turn interval)⟩ := by
  cases hd : state.deadline with
  | none => simp only [commit, hd]
  | some deadline =>
    have hl : deadline ≤ deadlineAfter turn interval :=
      Nat.le_trans (h deadline hd) (le_deadlineAfter turn interval)
    simp only [commit, hd, Nat.max_eq_right hl]

/-- A new answer is valid until its own deadline at least. -/
theorem validUntil_commit (state : RefreshState) (turn : Instant) (interval : Duration)
    (resources : ResourceSet) :
    (state.commit turn interval resources).ValidUntil (deadlineAfter turn interval) := by
  refine ⟨_, rfl, ?_⟩
  cases state.deadline with
  | none => exact Nat.le_refl _
  | some deadline => exact Nat.le_max_right deadline _

/-- A new answer does not shorten how long an answer is valid. -/
theorem ValidUntil.commit {state : RefreshState} {instant : Instant} (h : state.ValidUntil instant)
    (turn : Instant) (interval : Duration) (resources : ResourceSet) :
    (state.commit turn interval resources).ValidUntil instant := by
  obtain ⟨deadline, hd, hi⟩ := h
  refine ⟨_, rfl, ?_⟩
  rw [hd]
  exact Nat.le_trans hi (Nat.le_max_left deadline _)

end ModelRegistry.RefreshState
