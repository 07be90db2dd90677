import ModelRegistry.Proofs.DeadlineAdvance
import ModelRegistry.Proofs.RunningAhead

/-!
# Longer intervals

A longer interval gives a later deadline, as long as the platform clock holds both deadlines,
or neither. A deadline that it does not hold is set thirty years of 365 days ahead instead,
which is nearer than some that it does hold. So an interval of more than thirty years has a
later deadline than a longer one for which the clock is too short, and there only: the answer
refreshed with the longer interval ceases to be valid first. Apart from that it is served at
least as long as the other one, by whatever refreshes and however they mix, until everything
is dropped. Where the clock holds neither the deadline nor the thirty years there is no
deadline to compare; which intervals these are is said exactly.
-/

namespace ModelRegistry

namespace RefreshState

/-- The platform clock holds the deadline that an interval of more than thirty years gives,
but not the one that a longer interval gives. -/
structure Overreaches (turn : Instant) (shorter longer : Duration) : Prop where
  /-- The clock holds the earlier deadline. -/
  held : turn + shorter.nanos ≤ Instant.latest
  /-- It does not hold the later one. -/
  unheld : Instant.latest < turn + longer.nanos
  /-- What the later one is replaced by comes before the earlier one. -/
  far : farFuture < shorter.nanos

variable {turn : Instant} {shorter longer : Duration}

/-- The deadline of a longer interval comes first exactly if the interval overreaches. -/
theorem deadlineAfter_lt_iff (h : shorter.nanos ≤ longer.nanos) :
    deadlineAfter turn longer < deadlineAfter turn shorter ↔ Overreaches turn shorter longer := by
  have hle : turn + shorter.nanos ≤ turn + longer.nanos := Nat.add_le_add_left h turn
  rcases Nat.lt_or_ge Instant.latest (turn + longer.nanos) with unheld | held
  · rw [deadlineAfter_of_lt unheld]
    rcases Nat.lt_or_ge Instant.latest (turn + shorter.nanos) with both | held
    · rw [deadlineAfter_of_lt both]
      exact iff_of_false (Nat.lt_irrefl _) fun reach => Nat.not_le.mpr both reach.held
    · rw [deadlineAfter_of_le held]
      exact ⟨fun hlt => ⟨held, unheld, Nat.lt_of_add_lt_add_left hlt⟩,
        fun reach => Nat.add_lt_add_left reach.far turn⟩
  · rw [deadlineAfter_of_le held, deadlineAfter_of_le (hle.trans held)]
    exact iff_of_false (Nat.not_lt.mpr hle) fun reach => Nat.not_lt.mpr held reach.unheld

end RefreshState

namespace Session

variable {admission : Admission} {session : Session}

/-- In some run a refresh that obtained the gate at an instant has just taken up the answer to
its discovery call. -/
def JustRefreshed (admission : Admission) (turn : Instant) (interval : Duration)
    (resources : ResourceSet) (session : Session) : Prop :=
  ∃ now mapper source moves caller due,
    ((start now mapper source).run admission moves).ready? caller =
      some (.fetching turn interval (.ok resources) due) ∧
    ((start now mapper source).run admission moves).turn admission caller = session

/-- A refresh that has just taken up its answer has stored it with its own deadline, in a
session that is in order. -/
theorem JustRefreshed.stored {turn : Instant} {interval : Duration} {resources : ResourceSet}
    (h : JustRefreshed admission turn interval resources session) :
    session.Orderly ∧ session.InTime ∧
      session.mapper.refresh = ⟨resources, some (RefreshState.deadlineAfter turn interval)⟩ := by
  obtain ⟨now, mapper, source, moves, caller, due, ready, rfl⟩ := h
  have ho := orderly_run admission now mapper source moves
  have ht := ho.turned admission caller
  exact ⟨ho.of_turned ht,
    ((InTime.start now mapper source).run (orderly_start now mapper source) admission moves).turned
      ht, ho.refresh_turn admission ready⟩

/-- No time is taken back by a move. -/
theorem Orderly.now_le_move (h : session.Orderly) (admission : Admission) (move : Move) :
    session.now ≤ (session.move admission move).now := by
  cases move with
  | call delay request => exact Nat.le_refl session.now
  | wait nanos => exact Nat.le_add_right session.now nanos
  | turn caller => exact (h.turned admission caller).now_le

/-- An answer stays stored until its deadline, unless everything is dropped: whoever replaces
it obtained the gate when it was due. -/
theorem Orderly.refresh_run_of_lt (h : session.Orderly) (inTime : session.InTime)
    {resources : ResourceSet} {deadline : Instant}
    (stored : session.mapper.refresh = ⟨resources, some deadline⟩) {later : List Move}
    (keeps : Change.dropped ∉ session.changes admission later)
    (early : (session.run admission later).now < deadline) :
    (session.run admission later).mapper.refresh = ⟨resources, some deadline⟩ := by
  induction later using List.reverseRecOn with
  | nil => exact stored
  | append_singleton rest last ih =>
    rw [run_concat] at early ⊢
    rw [changes_concat, List.mem_append, not_or] at keeps
    have ho := h.run admission rest
    have hearly := (ho.now_le_move admission last).trans_lt early
    have hstored := ih keeps.1 hearly
    rcases ho.refresh_move admission last with same | ⟨caller, due, rfl, ready, -⟩ |
      ⟨caller, turn, interval, others, due, rfl, ready, hdue, -⟩
    · rw [same, hstored]
    · exact absurd (by rw [change?, ready]; exact List.mem_singleton_self _) keeps.2
    · -- the turn at the gate has come, so the deadline would have come too
      have hturn := inTime.run h admission rest _ _ _ _ _ (getElem?_of_ready? ready)
      have hle := hdue deadline (by rw [hstored])
      exact absurd (hle.trans hturn) (Nat.not_le.mpr hearly)

/-- Of an interval and one that is no shorter, at any instant:

* an interval has no deadline exactly if the platform clock holds neither the instant that
  much later nor the one thirty years later;
* if both have a deadline, that of the longer one is no earlier, unless it overreaches there,
  and then it is earlier;
* of two mappers with a refresh each that obtained the gate at the same instant and has just
  taken up its answer, the one with the longer interval, unless that overreaches, serves its
  answer whenever the other one does, after whatever moves, until everything is dropped; if
  it overreaches, there is an instant, at which both answers have been taken up, when the
  other one's is still valid and its own is not, exactly if both were taken up before the
  deadline of the shorter interval. -/
theorem longer_interval_serves_longer (admission : Admission) (shorter longer : Duration)
    (ordered : shorter.nanos ≤ longer.nanos) (turn : Instant) :
    (∀ interval, RefreshState.deadline? turn interval = none ↔
      Instant.latest < turn + interval.nanos ∧ Instant.latest < turn + RefreshState.farFuture) ∧
    ∀ early late, RefreshState.deadline? turn shorter = some early →
      RefreshState.deadline? turn longer = some late →
      (early ≤ late ↔ ¬ RefreshState.Overreaches turn shorter longer) ∧
      ∀ resources others one other,
        JustRefreshed admission turn shorter resources one →
        JustRefreshed admission turn longer others other →
        (¬ RefreshState.Overreaches turn shorter longer →
          ∀ later, Change.dropped ∉ other.changes admission later →
          ∀ time, (other.run admission later).now = time →
            one.mapper.refresh.cached? time = some resources →
            (other.run admission later).mapper.refresh.cached? time = some others) ∧
        (RefreshState.Overreaches turn shorter longer →
          ((∃ time, one.now ≤ time ∧ other.now ≤ time ∧
            one.mapper.refresh.cached? time = some resources ∧
            other.mapper.refresh.cached? time = none) ↔
          one.now < early ∧ other.now < early)) := by
  refine ⟨fun _ => RefreshState.deadline?_eq_none_iff, fun early late hearly hlate => ?_⟩
  have hlt : late < early ↔ RefreshState.Overreaches turn shorter longer := by
    rw [← RefreshState.deadlineAfter_lt_iff ordered, RefreshState.deadlineAfter_of_eq_some hearly,
      RefreshState.deadlineAfter_of_eq_some hlate]
  refine ⟨by rw [← hlt, Nat.not_lt], fun resources others one other hone hother => ?_⟩
  obtain ⟨-, -, hshort⟩ := hone.stored
  obtain ⟨orderly, inTime, hlong⟩ := hother.stored
  rw [RefreshState.deadlineAfter_of_eq_some hearly] at hshort
  rw [RefreshState.deadlineAfter_of_eq_some hlate] at hlong
  have hserved : ∀ time, one.mapper.refresh.cached? time = some resources ↔ time < early := by
    intro time
    rw [RefreshState.cached?_eq_some_iff, hshort]
    simp
  have hdue : ∀ time, other.mapper.refresh.cached? time = none ↔ late ≤ time := by
    intro time
    rw [RefreshState.cached?_eq_none_iff, hlong]
    simp [RefreshState.Due]
  constructor
  · rintro within later keeps time rfl served
    have hle := Nat.not_lt.mp (hlt.not.mpr within)
    have valid := ((hserved _).mp served).trans_le hle
    rw [RefreshState.cached?_eq_some_iff,
      orderly.refresh_run_of_lt inTime hlong keeps valid]
    exact ⟨_, rfl, valid, rfl⟩
  · intro reach
    constructor
    · rintro ⟨time, hone, hother, served, -⟩
      have valid := (hserved time).mp served
      exact ⟨hone.trans_lt valid, hother.trans_lt valid⟩
    · rintro ⟨hone, hother⟩
      -- the first instant at which both were taken up and the longer one's answer is due
      refine ⟨max late (max one.now other.now), ?_, ?_, (hserved _).mpr ?_, (hdue _).mpr ?_⟩
      · exact (Nat.le_max_left _ _).trans (Nat.le_max_right _ _)
      · exact (Nat.le_max_right _ _).trans (Nat.le_max_right _ _)
      · exact Nat.max_lt.mpr ⟨hlt.mpr reach, Nat.max_lt.mpr ⟨hone, hother⟩⟩
      · exact Nat.le_max_left _ _

/-- Ten nanoseconds pass before an interval that no clock holds does, and a hundred years do
not: that interval is taken for thirty years. -/
theorem ten_nanoseconds_and_a_century :
    let brief : Duration := ⟨10, by decide⟩
    let century : Duration := .ofSeconds 3153600000
    let unbounded : Duration := .ofSeconds 18446744073709551615
    let thirty : Instant := RefreshState.farFuture
    let first := Session.start 0 (.create .ofText 1 .default []) ⟨[⟨.ok .empty, 5⟩], 0⟩
    let refreshed := fun interval : Duration => first.run .checkFirst
      [.call 0 (.refresh (some interval)), .turn 0, .wait 5, .turn 0]
    brief.nanos ≤ unbounded.nanos ∧ century.nanos ≤ unbounded.nanos ∧
      RefreshState.deadline? 0 brief = some 10 ∧
      RefreshState.deadline? 0 century = some century.nanos ∧
      RefreshState.deadline? 0 unbounded = some thirty ∧
      10 ≤ thirty ∧ ¬ century.nanos ≤ thirty ∧
      ((refreshed unbounded).run .checkFirst [.wait 4]).mapper.refresh.cached? 9 = some .empty ∧
      ∃ time, (refreshed century).now ≤ time ∧ (refreshed unbounded).now ≤ time ∧
        (refreshed century).mapper.refresh.cached? time = some .empty ∧
        (refreshed unbounded).mapper.refresh.cached? time = none := by
  intro brief century unbounded thirty first refreshed
  have hbrief : brief.nanos ≤ unbounded.nanos := by decide
  have hcentury : century.nanos ≤ unbounded.nanos := by decide
  have ten : RefreshState.deadline? 0 brief = some 10 := by decide
  have hundred : RefreshState.deadline? 0 century = some century.nanos := by decide
  have far : RefreshState.deadline? 0 unbounded = some thirty := by decide
  have within : ¬ RefreshState.Overreaches 0 brief unbounded := fun reach =>
    absurd reach.far (by decide)
  have reach : RefreshState.Overreaches 0 century unbounded := ⟨by decide, by decide, by decide⟩
  have just : ∀ interval, JustRefreshed .checkFirst 0 interval .empty (refreshed interval) :=
    fun interval => ⟨0, .create .ofText 1 .default [], ⟨[⟨.ok .empty, 5⟩], 0⟩,
      [.call 0 (.refresh (some interval)), .turn 0, .wait 5], 0, 5, rfl, rfl⟩
  obtain ⟨later, served⟩ :=
    (longer_interval_serves_longer .checkFirst brief unbounded hbrief 0).2 10 thirty ten far
  obtain ⟨earlier, outlasted⟩ :=
    (longer_interval_serves_longer .checkFirst century unbounded hcentury 0).2 century.nanos thirty
      hundred far
  have taken : (refreshed century).now < century.nanos ∧
      (refreshed unbounded).now < century.nanos := ⟨by decide, by decide⟩
  refine ⟨hbrief, hcentury, ten, hundred, far, later.mpr within,
    earlier.not.mpr (not_not.mpr reach), ?_, ?_⟩
  · exact (served .empty .empty _ _ (just brief) (just unbounded)).1 within [.wait 4]
      List.not_mem_nil 9 rfl rfl
  · exact ((outlasted .empty .empty _ _ (just century) (just unbounded)).2 reach).mpr taken

/-- It is not so that a longer interval never gives an earlier deadline: thirty years and a
second after a refresh an answer that is valid for a hundred years is served, and one that is
valid for the longest time there is has to be discovered anew. -/
theorem century_outlasts_unbounded :
    let century : Duration := .ofSeconds 3153600000
    let unbounded : Duration := .ofSeconds 18446744073709551615
    let calls := fun interval : Duration =>
      ((Session.start 0 (.create .ofText 1 .default []) ⟨[⟨.ok .empty, 0⟩], 0⟩).run .checkFirst
        [.call 0 (.refresh (some interval)), .turn 0, .turn 0,
          .wait (946080001 * 1_000_000_000),
          .call 0 (.refresh (some interval)), .turn 1]).source.calls
    century.nanos ≤ unbounded.nanos ∧
      RefreshState.deadline? 0 century = some century.nanos ∧
      RefreshState.deadline? 0 unbounded = some RefreshState.farFuture ∧
      ¬ century.nanos ≤ RefreshState.farFuture ∧
      calls century = 1 ∧ calls unbounded = 2 := by
  decide

end Session

end ModelRegistry
