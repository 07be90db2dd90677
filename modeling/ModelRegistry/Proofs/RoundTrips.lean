import ModelRegistry.Proofs.SlowDiscovery

/-!
# Round trips

How many discovery calls the refreshes of a batch cost on the virtual clock, when no
answer is valid before, whichever of the callers are preferred at one instant. If the
first call succeeds within the interval of its refresh, it is the only one for all that
begin before that interval is over. If each call takes at least the interval of its
refresh, each refresh makes one. Between these, when discovery takes longer than some
intervals and not longer than others, nothing is said.
-/

namespace ModelRegistry.Session

variable {session : Session} {precedes : Nat → Nat → Prop} {batch : List (Nat × Request)}
  {moves : List Move}

/-- If discovery succeeds for the refresh that begins before all others, and within its
interval, all that are made for an instant before the end of that interval are served what it
found, without another call. -/
theorem AtRest.served_once (h : session.AtRest) (quiet : ∀ entry ∈ batch, entry.2.Quiet)
    (due : session.mapper.refresh.Due session.now)
    (clocked : Clocked precedes .checkFirst (session.call .checkFirst batch) moves)
    {place delay latency : Nat} {asked : Option Duration} {resources : ResourceSet}
    (hb : batch[place]? = some (delay, .refresh asked))
    (foremost : (begun .checkFirst (session.call .checkFirst batch) moves).head? =
      some (session.calls.length + place))
    (response : session.source.response = ⟨.ok resources, latency⟩)
    (inTime : latency < (asked.getD session.mapper.config.refreshInterval).nanos)
    (latest : session.now + delay +
      (asked.getD session.mapper.config.refreshInterval).nanos ≤ Instant.latest)
    (others : ∀ (other : Nat) later more, batch[other]? = some (later, .refresh more) →
      later < delay + (asked.getD session.mapper.config.refreshInterval).nanos) :
    (session.served batch moves).session.source.calls = session.source.calls + 1 ∧
      ∀ (other : Nat) later more, batch[other]? = some (later, .refresh more) →
        ∃ time, (session.served batch moves).answers[other]? =
          some (time, .resources resources) := by
  -- The batch is a rush in which discovery does not fail at all.
  have hfails : ∀ index failure, ([] : List (DiscoveryError × Nat))[index]? = some failure →
      (session.source.afterCalls index).response = ⟨.error failure.1, failure.2⟩ := nofun
  have hinTime : ∀ caller begins interval,
      (begun .checkFirst (session.call .checkFirst batch) moves)[
        ([] : List (DiscoveryError × Nat)).length]? = some caller →
      (session.call .checkFirst batch).Refreshes caller begins interval →
      latency < interval.nanos ∧
        begins + (([] : List (DiscoveryError × Nat)).map Prod.snd).sum + interval.nanos ≤
          Instant.latest ∧
        ∀ other later another, (session.call .checkFirst batch).Refreshes other later another →
          later < begins + interval.nanos := by
    intro caller begins interval hc hr
    rw [List.length_nil, ← List.head?_eq_getElem?, foremost] at hc
    cases hc
    have hfirst : (session.call .checkFirst batch).Refreshes (session.calls.length + place) _ _ :=
      h.refreshes_iff.mpr ⟨place, delay, asked, rfl, hb, rfl, rfl⟩
    obtain ⟨rfl, rfl⟩ := hfirst.unique hr
    refine ⟨inTime, latest, fun other later another ho => ?_⟩
    obtain ⟨index, after, more, -, hindex, rfl, -⟩ := h.refreshes_iff.mp ho
    rw [Nat.add_assoc]
    exact Nat.add_lt_add_left (others index after more hindex) session.now
  have hplace : ∀ (other : Nat) later more, batch[other]? = some (later, .refresh more) →
      session.calls.length + other ∈ begun .checkFirst (session.call .checkFirst batch) moves :=
    fun other later more ho => (h.perm_begun clocked).mem_iff.mpr
      (mem_refreshers.mpr ⟨other, later, more, rfl, ho⟩)
  let rush := h.rush clocked quiet due hfails response hinTime
  obtain ⟨-, -, hmany⟩ := h.served_rush (show rush.first = _ from rfl)
  obtain ⟨hcalls, hserved⟩ := hmany (List.length_pos_of_mem (hplace place delay asked hb))
  refine ⟨hcalls, fun other later more ho => ?_⟩
  obtain ⟨index, hindex⟩ := List.mem_iff_getElem?.mp (hplace other later more ho)
  exact hserved index other (Nat.zero_le index) hindex

/-- If all discovery calls of a batch are slow, discovery is called once for each refresh. -/
theorem AtRest.calls_of_slow (h : session.AtRest) (due : session.mapper.refresh.Due session.now)
    (clocked : Clocked precedes .checkFirst (session.call .checkFirst batch) moves)
    (slow : ∀ before caller after, withCalls batch moves = before ++ .turn caller :: after →
      (session.run .checkFirst before).SlowCall .checkFirst caller) :
    (session.served batch moves).session.source.calls =
      session.source.calls + batch.countP (·.2.isRefresh) := by
  have hc := (h.stale_run due slow (List.append_nil (withCalls batch moves)).symm).counted
  have hg := h.countP_gone clocked
  rw [session_served] at hg ⊢
  omega

/-- What the refreshes of a batch cost on the virtual clock that is served in a session
at rest in which no answer is valid, in any clocked run:

* if all other calls are quiet, and the first discovery call succeeds in less time
  than the interval of the refresh that begins before all others, whose end the
  platform clock holds, it is the only call, and all refreshes that begin before the interval
  is over are served what it found, whatever their own intervals are;
* if each discovery call that is made in the batch succeeds, but takes no less time
  than the interval of its refresh, whose end the platform clock holds, each refresh makes
  one call of its own and is given what it found, and at no moment is there a valid
  answer to serve.

When a batch is served, that is such a run in which the call made first is preferred, and the
refresh begins before all others that is made for an earlier instant than the others, or for the
same one at an earlier place. -/
theorem round_trips :
    (∀ (precedes : Nat → Nat → Prop) (session : Session) (batch : List (Nat × Request))
        (moves : List Move),
      let first := session.call .checkFirst batch
      let served := session.served batch moves
      let whole := withCalls batch moves
      session.AtRest → session.mapper.refresh.Due session.now →
      Clocked precedes .checkFirst first moves →
      (∀ (place delay : Nat) asked resources latency,
        let interval := asked.getD session.mapper.config.refreshInterval
        (∀ entry ∈ batch, entry.2.Quiet) →
        batch[place]? = some (delay, .refresh asked) →
        (begun .checkFirst first moves).head? = some (session.calls.length + place) →
        session.source.response = ⟨.ok resources, latency⟩ →
        latency < interval.nanos →
        session.now + delay + interval.nanos ≤ Instant.latest →
        (∀ (other : Nat) later more, batch[other]? = some (later, .refresh more) →
          later < delay + interval.nanos) →
        served.session.source.calls = session.source.calls + 1 ∧
          ∀ (other : Nat) later more, batch[other]? = some (later, .refresh more) →
            ∃ time, served.answers[other]? = some (time, .resources resources)) ∧
      ((∀ before caller after, whole = before ++ .turn caller :: after →
          (session.run .checkFirst before).SlowCall .checkFirst caller) →
        served.session.source.calls = session.source.calls + batch.countP (·.2.isRefresh) ∧
        (∀ (place delay : Nat) asked, batch[place]? = some (delay, .refresh asked) →
          discoveries .checkFirst (session.calls.length + place) session whole = 1 ∧
          ∃ turn interval resources time,
            CalledDiscovery .checkFirst session whole (session.calls.length + place) turn interval
              (.ok resources) ∧
            served.answers[place]? = some (time, .resources resources)) ∧
        ∀ before after, whole = before ++ after →
          (session.run .checkFirst before).mapper.refresh.cached?
            (session.run .checkFirst before).now = none)) ∧
    ∀ (session : Session) (batch : List (Nat × Request)),
      let first := session.call .checkFirst batch
      let moves := session.servingTurns batch
      session.AtRest →
      session.serve batch = session.served batch moves ∧
      session.scheduled .checkFirst batch = withCalls batch moves ∧
      Clocked (· ≤ ·) .checkFirst first moves ∧
      ((∀ entry ∈ batch, entry.2.Quiet) →
        ∀ (place delay : Nat) asked, batch[place]? = some (delay, .refresh asked) →
          (∀ (other : Nat) later more, batch[other]? = some (later, .refresh more) →
            Before (delay, place) (later, other)) →
          (begun .checkFirst first moves).head? = some (session.calls.length + place)) := by
  refine ⟨?_, ?_⟩
  · intro precedes session batch moves first served whole h due clocked
    refine ⟨?_, fun slow => ⟨h.calls_of_slow due clocked slow, ?_,
      fun before after hm => (h.stale_run due slow hm).cached?⟩⟩
    · intro place delay asked resources latency interval quiet hb foremost response inTime latest
        others
      exact h.served_once quiet due clocked hb foremost response inTime latest others
    · intro place delay asked hb
      obtain ⟨turn, interval, resources, time, called, answered⟩ :=
        h.calledDiscovery_of_slow due clocked slow hb
      have hle := (h.orderly.discoveries_le_one .checkFirst (session.calls.length + place)
        whole).1
      have hge := called.one_le_discoveries
      exact ⟨Nat.le_antisymm hle hge, turn, interval, resources, time, called, answered⟩
  · intro session batch first moves h
    have clocked := h.clocked_servingTurns batch
    exact ⟨session.serve_eq_served batch, rfl, clocked, fun quiet _ _ _ hb earliest =>
      h.head?_begun quiet hb earliest clocked⟩

/-- Of two refreshes the second is served what the first one found, if discovery is
quick; if it takes as long as their intervals, both call it. -/
theorem once_or_each :
    let pods : ResourceSet := .ofList [⟨"", "Pod", ["v1"], "pods", true⟩]
    let first := Session.start 0 (.create .ofText 1 .default []) ⟨[⟨.ok pods, 7⟩], 0⟩
    let quick : List (Nat × Request) := [(3, .refresh none), (5, .refresh (some .zero))]
    let slow : List (Nat × Request) :=
      [(3, .refresh (some ⟨7, by decide⟩)), (5, .refresh (some .zero))]
    ((first.serve quick).session.source.calls = 1 ∧
      ∃ time, (first.serve quick).answers[1]? = some (time, .resources pods)) ∧
    (first.serve slow).session.source.calls = 2 ∧
      discoveries .checkFirst 1 first (first.scheduled .checkFirst slow) = 1 := by
  intro pods first quick slow
  have hrest : first.AtRest := atRest_start 0 _ _
  have hdue : first.mapper.refresh.Due first.now := RefreshState.due_start 0
  obtain ⟨costs, serving⟩ := round_trips
  obtain ⟨hquick, -, quickly, foremost⟩ := serving first quick hrest
  obtain ⟨hslow, hmoves, slowly, -⟩ := serving first slow hrest
  obtain ⟨once, -⟩ := costs (· ≤ ·) first quick (first.servingTurns quick) hrest hdue quickly
  obtain ⟨-, each⟩ := costs (· ≤ ·) first slow (first.servingTurns slow) hrest hdue slowly
  have hothers : ∀ (other : Nat) later more, quick[other]? = some (later, .refresh more) →
      Before (3, 0) (later, other) ∧ later < 3 + Config.default.refreshInterval.nanos := by
    rintro (_ | _ | other) later more ho
    · cases ho
      exact ⟨.inr ⟨rfl, Nat.le_refl 0⟩, by decide⟩
    · cases ho
      exact ⟨.inl (by decide), by decide⟩
    · cases ho
  have hquiet : ∀ entry ∈ quick, entry.2.Quiet := by simp [quick, Request.Quiet]
  have hcalls : slowRun? .checkFirst first (withCalls slow (first.servingTurns slow)) = true := by
    decide +kernel
  obtain ⟨calls, answered⟩ := once 0 3 none pods 7 hquiet rfl
    (foremost hquiet 0 3 none rfl fun other later more ho => (hothers other later more ho).1) rfl
    (by decide) (by decide) fun other later more ho => (hothers other later more ho).2
  obtain ⟨trips, own, -⟩ := each fun _ _ _ he => slowCall_of_slowRun? first hcalls he
  rw [hquick, hslow, hmoves]
  exact ⟨⟨calls, answered 1 5 (some .zero) rfl⟩, trips, (own 1 5 (some .zero) rfl).1⟩

end ModelRegistry.Session
