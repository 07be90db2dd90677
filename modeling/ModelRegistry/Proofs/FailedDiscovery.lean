import ModelRegistry.Proofs.BatchRush
import ModelRegistry.Proofs.RefreshProvenance

/-!
# Failed discovery

A refresh whose discovery call fails is told of that very failure, and none of its
turns changes the mapper, whatever else goes on; and nobody else is told of it. So of
refreshes that begin at one instant each makes a discovery call of its own as long as
discovery fails, in the order in which they came, and the first success is for
all that are left. When the failed refresh is told is up to its response and to the
order of the turns.
-/

namespace ModelRegistry

/-- A refresh waits for a failure, or was told of it. -/
def Phase.Failing (turn : Instant) (interval : Duration) (error : DiscoveryError) : Phase → Prop
  | .fetching began another outcome _ =>
    began = turn ∧ another = interval ∧ outcome = .error error
  | .finished _ answer => answer = .failed error
  | _ => False

/-- Whoever is failing waits for that very failure, or was told of it at some instant. -/
theorem InPhase.failing {turn : Instant} {interval : Duration} {error : DiscoveryError}
    {calls : List Phase} {caller : Nat}
    (h : InPhase (Phase.Failing turn interval error) calls caller) :
    (∃ due, calls[caller]? = some (.fetching turn interval (.error error) due)) ∨
      ∃ time, calls[caller]? = some (.finished time (.failed error)) := by
  obtain ⟨phase, hp, hf⟩ := h
  cases phase with
  | fetching began another outcome due =>
    obtain ⟨rfl, rfl, rfl⟩ := hf
    exact .inl ⟨due, hp⟩
  | finished time answer =>
    have ha : answer = .failed error := hf
    exact .inr ⟨time, ha ▸ hp⟩
  | starting due request => exact hf.elim
  | queued another => exact hf.elim

namespace Session

variable {admission : Admission} {session : Session} {caller : Nat}

/-- A call that is over cannot go on. -/
theorem ready?_eq_none_of_finished {time : Instant} {answer : Answer}
    (hp : session.calls[caller]? = some (.finished time answer)) :
    session.ready? caller = none := by
  refine Option.eq_none_iff_forall_ne_some.mpr fun phase hr => ?_
  obtain ⟨hq, due, hd, -⟩ := ready?_eq_some_iff.mp hr
  rw [hp] at hq
  cases hq
  cases hd

/-- A call that is over stays so. -/
theorem Orderly.finished_move (h : session.Orderly) {time : Instant} {answer : Answer}
    (hp : session.calls[caller]? = some (.finished time answer)) (admission : Admission)
    (move : Move) :
    (session.move admission move).calls[caller]? = some (.finished time answer) := by
  cases move with
  | call delay request =>
    obtain ⟨hl, -⟩ := List.getElem?_eq_some_iff.mp hp
    exact (List.getElem?_append_left hl).trans hp
  | wait nanos => exact hp
  | turn other =>
    rw [Session.move]
    by_cases ho : caller = other
    · subst ho
      rw [turn_of_not_ready admission (ready?_eq_none_of_finished hp)]
      exact hp
    · exact ((h.turned admission other).getElem?_of_ne ho).trans hp

/-- A call that is over stays so in every run. -/
theorem Orderly.finished_run (h : session.Orderly) {time : Instant} {answer : Answer}
    (hp : session.calls[caller]? = some (.finished time answer)) (admission : Admission)
    (moves : List Move) :
    (session.run admission moves).calls[caller]? = some (.finished time answer) := by
  induction moves generalizing session with
  | nil => exact hp
  | cons head rest ih => exact ih (h.move admission head) (h.finished_move hp admission head)

/-- A refresh whose discovery call has failed is told so in its turn, and leaves the
gate to the next in line. -/
theorem turn_of_failed {turn due : Instant} {interval : Duration} {error : DiscoveryError}
    (admission : Admission)
    (ready : session.ready? caller = some (.fetching turn interval (.error error) due)) :
    (session.turn admission caller).calls[caller]? =
        some (.finished session.now (.failed error)) ∧
      (session.turn admission caller).gate = session.gate.leave ∧
      (session.turn admission caller).mapper = session.mapper := by
  rw [turn_of_ready admission ready]
  exact ⟨getElem?_set_of_getElem? (getElem?_of_ready? ready) _, rfl, rfl⟩

/-- A refresh that waits for a failure, or was told of it, stays so. -/
theorem Orderly.failing_move (h : session.Orderly) {turn : Instant} {interval : Duration}
    {error : DiscoveryError}
    (failing : InPhase (Phase.Failing turn interval error) session.calls caller)
    (admission : Admission) (move : Move) :
    InPhase (Phase.Failing turn interval error) (session.move admission move).calls caller := by
  cases move with
  | call delay request => exact (inPhase_concat id session.calls caller).mpr failing
  | wait nanos => exact failing
  | turn other =>
    by_cases ho : caller = other
    · subst ho
      rw [Session.move]
      cases hr : session.ready? caller with
      | none =>
        rw [turn_of_not_ready admission hr]
        exact failing
      | some phase =>
        rcases failing.failing with ⟨due, hp⟩ | ⟨time, hp⟩
        · have hq := getElem?_of_ready? hr
          rw [hp] at hq
          cases hq
          exact ⟨_, (turn_of_failed admission hr).1, rfl⟩
        · rw [ready?_eq_none_of_finished hp] at hr
          cases hr
    · obtain ⟨phase, hp, hf⟩ := failing
      exact ⟨phase, ((h.turned admission other).getElem?_of_ne ho).trans hp, hf⟩

/-- A refresh that waits for a failure, or was told of it, stays so in every run. -/
theorem Orderly.failing_run (h : session.Orderly) {turn : Instant} {interval : Duration}
    {error : DiscoveryError}
    (failing : InPhase (Phase.Failing turn interval error) session.calls caller)
    (admission : Admission) (moves : List Move) :
    InPhase (Phase.Failing turn interval error) (session.run admission moves).calls caller := by
  induction moves generalizing session with
  | nil => exact failing
  | cons head rest ih => exact ih (h.move admission head) (h.failing_move failing admission head)

/-- A call that changes the mapper in its turn is over and was not told of a failure. -/
theorem Changed.finished {change : Change} (h : session.Changed (.turn caller) change)
    (admission : Admission) :
    ∃ answer, (∀ error, answer ≠ .failed error) ∧
      (session.turn admission caller).calls[caller]? = some (.finished session.now answer) := by
  cases h with
  | registered ready =>
    rw [turn_of_ready admission ready]
    exact ⟨.done, nofun, getElem?_set_of_getElem? (getElem?_of_ready? ready) _⟩
  | committed ready =>
    rw [turn_of_ready admission ready]
    exact ⟨.resources _, nofun, getElem?_set_of_getElem? (getElem?_of_ready? ready) _⟩
  | dropped ready =>
    rw [turn_of_ready admission ready]
    exact ⟨.done, nofun, getElem?_set_of_getElem? (getElem?_of_ready? ready) _⟩

/-- No turn of a call that fails in the end changes the mapper. -/
theorem Orderly.mapper_turn_of_failing {first : Session} (h : first.Orderly) {turn : Instant}
    {interval : Duration} {error : DiscoveryError} {before after : List Move}
    (failing : InPhase (Phase.Failing turn interval error)
      (first.run admission (before ++ .turn caller :: after)).calls caller) :
    ((first.run admission before).turn admission caller).mapper =
      (first.run admission before).mapper := by
  have ho := h.run admission before
  rw [mapper_turn]
  cases hc : (first.run admission before).change? (.turn caller) with
  | none => rfl
  | some change =>
    -- A turn that changes the mapper ends its call, and not with a failure.
    obtain ⟨answer, hn, hp⟩ := (changed_of_change? hc).finished admission
    have hm := ho.move admission (.turn caller)
    have hend := hm.finished_run hp admission after
    rw [run_append] at failing
    exact absurd ((inPhase_iff hend).mp failing) (hn error)

/-- Whoever was told of a failure made the discovery call that failed. -/
theorem calledDiscovery_of_failed {now : Instant} {mapper : Mapper} {source : Source}
    {moves : List Move} {time : Instant} {error : DiscoveryError}
    (h : ((start now mapper source).run admission moves).calls[caller]? =
      some (.finished time (.failed error))) :
    ∃ turn interval, CalledDiscovery admission (start now mapper source) moves caller turn
      interval (.error error) := by
  obtain ⟨before, after, rfl, hb, ht⟩ := phase_origin h nofun
  have ho := orderly_run admission now mapper source before
  obtain ⟨turn, interval, due, hp⟩ := (ho.turned admission caller).failed_origin hb ht
  exact ⟨turn, interval, (fetching_origin hp).append _⟩

/-- A refresh whose discovery call has failed waits for that failure, or was told of
it. -/
theorem CalledDiscovery.failing {first : Session} (h : first.Orderly) {moves : List Move}
    {turn : Instant} {interval : Duration} {error : DiscoveryError}
    (called : CalledDiscovery admission first moves caller turn interval (.error error)) :
    InPhase (Phase.Failing turn interval error) (first.run admission moves).calls caller := by
  obtain ⟨before, after, rfl, hn, obtains, discovers, outcome⟩ := called
  have ho := h.run admission before
  have hp := obtains.fetching (obtains.discovers_iff.mp discovers)
  rw [run_append]
  exact (ho.move admission (.turn caller)).failing_run ⟨_, hp, hn, rfl, outcome⟩ admission after

section Together

variable {precedes : Nat → Nat → Prop} {batch : List (Nat × Request)} {moves : List Move}
  {delay : Nat} {failures : List (DiscoveryError × Nat)} {resources : ResourceSet} {latency : Nat}

/-- In a clocked run refreshes that are made for one instant are a rush, if the one that is to be
told of the success is told so within its interval. -/
def AtRest.rushTogether (h : session.AtRest)
    (clocked : Clocked precedes .checkFirst (session.call .checkFirst batch) moves)
    (quiet : ∀ entry ∈ batch, entry.2.Quiet) (due : session.mapper.refresh.Due session.now)
    (together : ∀ entry ∈ batch, entry.2.isRefresh = true → entry.1 = delay)
    {more : List Response}
    (replies : session.source.responses =
      failures.map (fun failure => ⟨.error failure.1, failure.2⟩) ++
        ⟨.ok resources, latency⟩ :: more)
    (inTime : ∀ (place : Nat) asked, batch[place]? = some (delay, .refresh asked) →
      (begun .checkFirst (session.call .checkFirst batch) moves)[failures.length]? =
        some (session.calls.length + place) →
      latency < (asked.getD session.mapper.config.refreshInterval).nanos ∧
        session.now + delay + (failures.map Prod.snd).sum +
          (asked.getD session.mapper.config.refreshInterval).nanos ≤ Instant.latest) : Rush :=
  h.rush clocked quiet due (fun _ _ hf => Source.response_of_failures replies hf)
    (Source.response_of_success replies)
    (by
      intro caller begins interval ho hr
      obtain ⟨place, made, asked, rfl, hb, rfl, rfl⟩ := h.refreshes_iff.mp hr
      obtain rfl : made = delay := together _ (List.mem_of_getElem? hb) rfl
      obtain ⟨hlatency, hlatest⟩ := inTime place asked hb ho
      refine ⟨hlatency, hlatest, ?_⟩
      intro other later another hother
      obtain ⟨place', made', asked', -, hb', rfl, -⟩ := h.refreshes_iff.mp hother
      obtain rfl : made' = made := together _ (List.mem_of_getElem? hb') rfl
      exact Nat.lt_add_of_pos_right (Nat.zero_lt_of_lt hlatency))

/-- If the call made first is preferred, a refresh of those made for one instant begins after as
many as there are before it in the batch. -/
theorem AtRest.getElem?_begun (h : session.AtRest) (quiet : ∀ entry ∈ batch, entry.2.Quiet)
    (together : ∀ entry ∈ batch, entry.2.isRefresh = true → entry.1 = delay)
    (clocked : Clocked (· ≤ ·) .checkFirst (session.call .checkFirst batch) moves) {place : Nat}
    {asked : Option Duration} (hb : batch[place]? = some (delay, .refresh asked)) :
    (begun .checkFirst (session.call .checkFirst batch) moves)[
        (batch.take place).countP (·.2.isRefresh)]? = some (session.calls.length + place) := by
  rw [h.begun_together quiet together clocked]
  exact getElem?_refreshers session.calls.length hb

end Together

/-- Failed discovery is told to the refresh that called it, unchanged, and to nobody
else, and it changes nothing. In every run, whatever the calls are and in whatever
order the callers have their turns:

* a refresh whose discovery call fails waits for that failure or was told of it, and
  none of its turns changes the mapper;
* once the response is there it is told so in its turn;
* whoever was told of a failure made the discovery call that failed.

On the virtual clock, if no answer is valid in a session at rest, discovery is to fail a
number of times and then to succeed, and refreshes are made for one instant, beside quiet
calls, then whichever of the callers are preferred at one instant all refreshes begin in some
order, and:

* of the refreshes that begin, each is told of the failure at its place of the failures;
* if there are not more refreshes than failures, each calls discovery, and the stored
  answer stays as it was, like the whole mapper if there are only refreshes;
* if there are more, discovery is called once more than it fails, and all that begin after the
  failures are served what it found, provided that it took less time than the interval of the
  one who called it, whose end the platform clock holds.

When a batch is served, that is such a run in which the call made first is preferred, and the
refreshes begin in the order of the batch. -/
theorem failed_discovery :
    (∀ (admission : Admission) (now : Instant) (mapper : Mapper) (source : Source)
        (moves : List Move),
      let first := Session.start now mapper source
      let session := first.run admission moves
      (∀ caller turn interval error,
        CalledDiscovery admission first moves caller turn interval (.error error) →
        ((∃ due, session.calls[caller]? = some (.fetching turn interval (.error error) due)) ∨
          ∃ time, session.calls[caller]? = some (.finished time (.failed error))) ∧
        ∀ before after, moves = before ++ .turn caller :: after →
          ((first.run admission before).turn admission caller).mapper =
            (first.run admission before).mapper) ∧
      (∀ caller turn interval error due,
        session.ready? caller = some (.fetching turn interval (.error error) due) →
        (session.turn admission caller).calls[caller]? =
          some (.finished session.now (.failed error))) ∧
      ∀ (caller : Nat) time error,
        session.calls[caller]? = some (.finished time (.failed error)) →
        ∃ turn interval,
          CalledDiscovery admission first moves caller turn interval (.error error)) ∧
    (∀ (precedes : Nat → Nat → Prop) (session : Session) (batch : List (Nat × Request))
        (delay : Nat) (failures : List (DiscoveryError × Nat)) (resources : ResourceSet)
        (latency : Nat) (more : List Response) (moves : List Move),
      let first := session.call .checkFirst batch
      let served := session.served batch moves
      let order := begun .checkFirst first moves
      let count := batch.countP (·.2.isRefresh)
      session.AtRest → session.mapper.refresh.Due session.now →
      (∀ entry ∈ batch, entry.2.Quiet) →
      (∀ entry ∈ batch, entry.2.isRefresh = true → entry.1 = delay) →
      session.source.responses =
        failures.map (fun failure => ⟨.error failure.1, failure.2⟩) ++
          ⟨.ok resources, latency⟩ :: more →
      Clocked precedes .checkFirst first moves →
      (∀ (place : Nat) asked, batch[place]? = some (delay, .refresh asked) →
        order[failures.length]? = some (session.calls.length + place) →
        latency < (asked.getD session.mapper.config.refreshInterval).nanos ∧
          session.now + delay + (failures.map Prod.snd).sum +
            (asked.getD session.mapper.config.refreshInterval).nanos ≤ Instant.latest) →
      order.Perm (refreshers batch session.calls.length) ∧
      (∀ (index place : Nat) failure, order[index]? = some (session.calls.length + place) →
        failures[index]? = some failure →
        ∃ time, served.answers[place]? = some (time, .failed failure.1)) ∧
      (count ≤ failures.length →
        served.session.source.calls = session.source.calls + count ∧
        served.session.mapper.refresh = session.mapper.refresh ∧
        ((∀ entry ∈ batch, entry.2.isRefresh = true) →
          served.session.mapper = session.mapper)) ∧
      (failures.length < count →
        served.session.source.calls = session.source.calls + failures.length + 1 ∧
        ∀ (index place : Nat), failures.length ≤ index →
          order[index]? = some (session.calls.length + place) →
          ∃ time, served.answers[place]? = some (time, .resources resources))) ∧
    ∀ (session : Session) (batch : List (Nat × Request)) (delay : Nat),
      let first := session.call .checkFirst batch
      let moves := session.servingTurns batch
      session.AtRest →
      session.serve batch = session.served batch moves ∧
      Clocked (· ≤ ·) .checkFirst first moves ∧
      ((∀ entry ∈ batch, entry.2.Quiet) →
        (∀ entry ∈ batch, entry.2.isRefresh = true → entry.1 = delay) →
        ∀ (place : Nat) asked, batch[place]? = some (delay, .refresh asked) →
          (begun .checkFirst first moves)[(batch.take place).countP (·.2.isRefresh)]? =
            some (session.calls.length + place)) := by
  refine ⟨?_, ?_, ?_⟩
  · intro admission now mapper source moves first session
    have h := orderly_start now mapper source
    refine ⟨?_, fun _ _ _ _ _ ready => (turn_of_failed admission ready).1,
      fun _ _ _ => calledDiscovery_of_failed⟩
    intro caller turn interval error called
    have hf := called.failing h
    refine ⟨hf.failing, ?_⟩
    rintro before after rfl
    exact h.mapper_turn_of_failing hf
  · intro precedes session batch delay failures resources latency more moves first served order
      count h due quiet together replies clocked inTime
    have hlength : order.length = count := h.length_begun clocked
    obtain ⟨hfailed, hfew, hmany⟩ := h.served_rush
      (show (h.rushTogether clocked quiet due together replies inTime).first = _ from rfl)
    refine ⟨h.perm_begun clocked, hfailed, fun hle => ?_, fun hlt => hmany (hlength ▸ hlt)⟩
    obtain ⟨hcalls, hkept⟩ := hfew (hlength ▸ hle)
    exact ⟨hcalls.trans (congrArg (session.source.calls + ·) hlength), hkept⟩
  · intro session batch delay first moves h
    have clocked := h.clocked_servingTurns batch
    exact ⟨session.serve_eq_served batch, clocked, fun quiet together _ _ hb =>
      h.getElem?_begun quiet together clocked hb⟩

/-- Of three refreshes that begin at one instant the first is told of the failure, and
the others are served what the second call finds. -/
theorem told_alone :
    let error : DiscoveryError := .transport "connection refused"
    let pods : ResourceSet := .ofList [⟨"", "Pod", ["v1"], "pods", true⟩]
    let first := Session.start 0 (.create .ofText 1 .default [])
      ⟨[⟨.error error, 5⟩, ⟨.ok pods, 7⟩], 0⟩
    let moves : List Move := [.call 0 (.refresh none), .turn 0, .wait 5]
    let told := (first.run .checkFirst moves).turn .checkFirst 0
    let batch : List (Nat × Request) := [(0, .refresh none), (0, .refresh none), (0, .refresh none)]
    (told.calls[0]? = some (.finished 5 (.failed error)) ∧
      told.mapper = (first.run .checkFirst moves).mapper) ∧
    (∃ time, (first.serve batch).answers[0]? = some (time, .failed error)) ∧
    (∃ time, (first.serve batch).answers[2]? = some (time, .resources pods)) ∧
    (first.serve batch).session.source.calls = 2 := by
  intro error pods first moves told batch
  obtain ⟨run, together, serving⟩ := failed_discovery
  obtain ⟨-, tells, -⟩ := run .checkFirst 0 (.create .ofText 1 .default [])
    ⟨[⟨.error error, 5⟩, ⟨.ok pods, 7⟩], 0⟩ moves
  obtain ⟨alone, -, made⟩ := run .checkFirst 0 (.create .ofText 1 .default [])
    ⟨[⟨.error error, 5⟩, ⟨.ok pods, 7⟩], 0⟩ (moves ++ [.turn 0])
  have hp : told.calls[0]? = some (.finished 5 (.failed error)) :=
    tells 0 0 Config.default.refreshInterval error 5 rfl
  obtain ⟨turn, interval, called⟩ := made 0 5 error hp
  have hm := (alone 0 turn interval error called).2 moves [] rfl
  have hasked : ∀ (place : Nat) asked, batch[place]? = some (0, .refresh asked) →
      asked = none := by
    intro place asked hb
    have hmem := List.mem_of_getElem? hb
    simpa [batch] using hmem
  have hrest : first.AtRest := atRest_start _ _ _
  have hquiet : ∀ entry ∈ batch, entry.2.Quiet := by simp [batch, Request.Quiet]
  have htogether : ∀ entry ∈ batch, entry.2.isRefresh = true → entry.1 = 0 := by simp [batch]
  obtain ⟨hserve, clocked, places⟩ := serving first batch 0 hrest
  have hplaces := places hquiet htogether
  obtain ⟨-, failed, -, served⟩ := together (· ≤ ·) first batch 0 [(error, 5)] pods 7 []
    (first.servingTurns batch) hrest (RefreshState.due_start 0) hquiet htogether rfl clocked (by
      intro place asked hb _
      rw [hasked place asked hb]
      decide)
  obtain ⟨calls, answers⟩ := served (by decide)
  rw [hserve]
  exact ⟨⟨hp, hm⟩, failed 0 0 (error, 5) (hplaces 0 none rfl) rfl,
    answers 2 2 (by decide) (hplaces 2 none rfl), calls⟩

end Session

end ModelRegistry
