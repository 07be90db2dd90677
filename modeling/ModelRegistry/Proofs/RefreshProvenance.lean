import ModelRegistry.Proofs.DiscoveryCalls

/-!
# Where answers come from

The stored answer and its deadline always belong together: they are those of the
last answer taken up since the last reset, or there is neither. The deadline is
set as the later one of two, by whoever holds the gate and while resets go on,
but the answer that it replaces is always due. So every answer that a refresh
gives is that of its own discovery call, or the stored one before its own
deadline. Nothing is said about what the source still serves at that time.
-/

namespace ModelRegistry.Session

section

variable {admission : Admission} {now : Instant} {mapper : Mapper} {source : Source}

/-- The stored answer is the last one taken up since the last reset, with its own
deadline; there is none if none was taken up. -/
theorem refresh_run (fresh : mapper.refresh = .start) (moves : List Move) :
    ((start now mapper source).run admission moves).mapper.refresh =
      (Change.lastCommit? ((start now mapper source).changes admission moves)).elim
        .start Commit.state := by
  induction moves using List.reverseRecOn with
  | nil => exact fresh
  | append_singleton rest last ih =>
    rw [run_concat, mapper_move, changes_concat]
    cases hc : ((start now mapper source).run admission rest).change? last with
    | none =>
      rw [Option.toList_none, List.append_nil]
      exact ih
    | some change =>
      rw [Option.toList_some]
      cases changed_of_change? hc with
      | registered ready =>
        rw [Change.lastCommit?_concat _ rfl]
        exact ih
      | committed ready =>
        -- The answer that is replaced was due then, so the later deadline is the new one.
        have hd := (orderly_run admission now mapper source rest).due_of_fetching
          (getElem?_of_ready? ready)
        rw [Change.lastCommit?_concat _ rfl]
        exact RefreshState.commit_of_due hd _ _
      | dropped ready =>
        rw [Change.lastCommit?_concat_dropped]
        rfl

/-- The last answer taken up is that of a discovery call, made by the refresh
that took it up when it obtained the gate. -/
theorem calledDiscovery_of_lastCommit? {moves : List Move} {commit : Commit}
    (h : Change.lastCommit? ((start now mapper source).changes admission moves) = some commit) :
    CalledDiscovery admission (start now mapper source) moves commit.caller commit.turn
      commit.interval (.ok commit.resources) := by
  induction moves using List.reverseRecOn with
  | nil => cases h
  | append_singleton rest last ih =>
    rw [changes_concat] at h
    cases hc : ((start now mapper source).run admission rest).change? last with
    | none =>
      rw [hc, Option.toList_none, List.append_nil] at h
      exact (ih h).append [last]
    | some change =>
      rw [hc, Option.toList_some] at h
      cases changed_of_change? hc with
      | registered ready =>
        rw [Change.lastCommit?_concat _ rfl] at h
        exact (ih h).append _
      | committed ready =>
        rw [Change.lastCommit?_concat _ rfl] at h
        cases h
        exact (fetching_origin (getElem?_of_ready? ready)).append _
      | dropped ready =>
        rw [Change.lastCommit?_concat_dropped] at h
        cases h

end

/-- No call answered at once is answered with resources. -/
theorem ask_ne_resources (session : Session) (query : Query) (resources : ResourceSet) :
    (session.ask query).2 ≠ .resources resources := by
  cases query <;> exact nofun

/-- A turn in which a call comes to be answered with resources is that of a
refresh which takes up the response it waited for, or to which the stored answer
is served. -/
theorem Turned.answer {admission : Admission} {session after : Session} {caller : Nat}
    {time : Instant} {resources : ResourceSet} (h : Turned admission session caller after)
    (before : session.calls[caller]? ≠ some (.finished time (.resources resources)))
    (answered : after.calls[caller]? = some (.finished time (.resources resources))) :
    session.now = time ∧
      ((∃ turn interval due, session.calls[caller]? =
          some (.fetching turn interval (.ok resources) due)) ∨
        session.mapper.refresh.cached? time = some resources) := by
  have hset : ∀ {old new : Phase}, session.calls[caller]? = some old →
      (session.calls.set caller new)[caller]? = some (.finished time (.resources resources)) →
      new = .finished time (.resources resources) := by
    intro old new hp hn
    rw [getElem?_set_of_getElem? hp] at hn
    exact Option.some.inj hn
  cases h with
  | idle waits => exact absurd answered before
  | asked ready =>
    rw [calls_finish_ask] at answered
    have hn := hset (getElem?_of_ready? ready) answered
    injection hn with _ ha
    exact absurd ha (ask_ne_resources session _ resources)
  | served ready look cached =>
    cases hset (getElem?_of_ready? ready) answered
    exact ⟨rfl, .inr cached⟩
  | queued ready unserved held => cases hset (getElem?_of_ready? ready) answered
  | took obtains cached =>
    obtain ⟨phase, hp, -⟩ := obtains.getElem?
    cases hset hp answered
    exact ⟨rfl, .inr cached⟩
  | discovered obtains cached =>
    obtain ⟨phase, hp, -⟩ := obtains.getElem?
    cases hset hp answered
  | failed ready => cases hset (getElem?_of_ready? ready) answered
  | committed ready =>
    have hp := getElem?_of_ready? ready
    cases hset hp answered
    exact ⟨rfl, .inl ⟨_, _, _, hp⟩⟩

/-- No call answered at once is told of a failure. -/
theorem ask_ne_failed (session : Session) (query : Query) (error : DiscoveryError) :
    (session.ask query).2 ≠ .failed error := by
  cases query <;> exact nofun

/-- Whoever comes to be told of a failure in a turn waited for it. -/
theorem Turned.failed_origin {admission : Admission} {session after : Session} {caller : Nat}
    {time : Instant} {error : DiscoveryError} (h : Turned admission session caller after)
    (before : session.calls[caller]? ≠ some (.finished time (.failed error)))
    (told : after.calls[caller]? = some (.finished time (.failed error))) :
    ∃ turn interval due,
      session.calls[caller]? = some (.fetching turn interval (.error error) due) := by
  have hset : ∀ {old new : Phase}, session.calls[caller]? = some old →
      (session.calls.set caller new)[caller]? = some (.finished time (.failed error)) →
      new = .finished time (.failed error) := by
    intro old new hp hn
    rw [getElem?_set_of_getElem? hp] at hn
    exact Option.some.inj hn
  cases h with
  | idle waits => exact absurd told before
  | asked ready =>
    rw [calls_finish_ask] at told
    have hn := hset (getElem?_of_ready? ready) told
    injection hn with _ ha
    exact absurd ha (ask_ne_failed session _ error)
  | served ready look cached => cases hset (getElem?_of_ready? ready) told
  | queued ready unserved held => cases hset (getElem?_of_ready? ready) told
  | took obtains cached =>
    obtain ⟨phase, hp, -⟩ := obtains.getElem?
    cases hset hp told
  | discovered obtains cached =>
    obtain ⟨phase, hp, -⟩ := obtains.getElem?
    cases hset hp told
  | failed ready =>
    have hp := getElem?_of_ready? ready
    cases hset hp told
    exact ⟨_, _, _, hp⟩
  | committed ready => cases hset (getElem?_of_ready? ready) told

/-- A stored answer that is served is the last one taken up, before its deadline. -/
theorem lt_deadline_of_cached? {last : Option Commit} {time : Instant} {resources : ResourceSet}
    (h : (last.elim RefreshState.start Commit.state).cached? time = some resources) :
    ∃ commit, last = some commit ∧ commit.resources = resources ∧ time < commit.deadline := by
  cases last with
  | none => cases h
  | some commit =>
    obtain ⟨deadline, hd, ht, hr⟩ := RefreshState.cached?_eq_some_iff.mp h
    cases hd
    exact ⟨commit, rfl, hr, ht⟩

/-- There is a deadline exactly if an answer was taken up. -/
theorem isSome_deadline (last : Option Commit) :
    (last.elim RefreshState.start Commit.state).deadline.isSome = last.isSome := by
  cases last <;> rfl

/-- At every moment of every run from a mapper that was just made, whatever the
calls are and in whatever order the callers have their turns:

* there is no deadline and no resources if no answer was taken up since the last
  reset, and otherwise both are those of the last one taken up, whose deadline
  counts from the instant at which its refresh obtained the gate, and whose
  resources its discovery call found;
* there has been an answer exactly in the second case;
* a refresh answered with resources was answered in one of its turns, either with
  what its own discovery call found, or before its deadline with the last answer
  taken up since the last reset. -/
theorem refresh_provenance (admission : Admission) (hashing : Hashing) (cpus : Nat)
    (config : Config) (candidates : List Candidate) (now : Instant) (source : Source)
    (moves : List Move) :
    let first := Session.start now (.create hashing cpus config candidates) source
    let session := first.run admission moves
    let last := Change.lastCommit? (first.changes admission moves)
    session.mapper.refresh = last.elim ⟨.empty, none⟩ (fun commit =>
      ⟨commit.resources, some (RefreshState.deadlineAfter commit.turn commit.interval)⟩) ∧
    (∀ commit, last = some commit →
      CalledDiscovery admission first moves commit.caller commit.turn commit.interval
        (.ok commit.resources)) ∧
    session.ask .hasEverRefreshed = (session, .truth last.isSome) ∧
    (∀ caller time resources,
      session.calls[caller]? = some (.finished time (.resources resources)) →
      ∃ before after, moves = before ++ .turn caller :: after ∧
        (first.run admission before).now = time ∧
        ((∃ turn interval,
            CalledDiscovery admission first before caller turn interval (.ok resources)) ∨
          ∃ commit, Change.lastCommit? (first.changes admission before) = some commit ∧
            commit.resources = resources ∧ time < commit.deadline)) := by
  intro first session last
  have hs : ∀ moves, (first.run admission moves).mapper.refresh =
      (Change.lastCommit? (first.changes admission moves)).elim .start Commit.state :=
    refresh_run rfl
  refine ⟨hs moves, fun commit hc => calledDiscovery_of_lastCommit? hc, ?_, ?_⟩
  · rw [ask, Mapper.hasEverRefreshed, hs moves, isSome_deadline]
  · intro caller time resources hp
    obtain ⟨before, after, hm, hb, ht⟩ := phase_origin hp nofun
    refine ⟨before, after, hm, ?_⟩
    have ho := orderly_run admission now (.create hashing cpus config candidates) source before
    obtain ⟨hn, ⟨turn, interval, due, hf⟩ | hc⟩ := (ho.turned admission caller).answer hb ht
    · exact ⟨hn, .inl ⟨turn, interval, fetching_origin hf⟩⟩
    · rw [hs before] at hc
      exact ⟨hn, .inr (lt_deadline_of_cached? hc)⟩

/-- A refresh that makes no discovery call of its own is answered from the store,
before the deadline of what is stored there. -/
theorem answered_from_store :
    let interval : Duration := ⟨10, by decide⟩
    let first := Session.start 0 (.create .ofText 1 .default []) ⟨[⟨.ok .empty, 5⟩], 0⟩
    let moves : List Move := [.call 0 (.refresh (some interval)), .turn 0, .wait 5, .turn 0,
      .call 4 (.refresh none), .wait 4, .turn 1]
    (first.run .checkFirst moves).calls[1]? = some (.finished 9 (.resources .empty)) ∧
      (first.run .checkFirst moves).source.calls = 1 ∧
      ∃ before after, moves = before ++ .turn 1 :: after ∧
        (first.run .checkFirst before).now = 9 ∧
        ((∃ turn interval,
            CalledDiscovery .checkFirst first before 1 turn interval (.ok .empty)) ∨
          ∃ commit, Change.lastCommit? (first.changes .checkFirst before) = some commit ∧
            commit.resources = .empty ∧ 9 < commit.deadline) := by
  intro interval first moves
  have hf : (first.run .checkFirst moves).calls[1]? =
      some (.finished 9 (.resources .empty)) := rfl
  obtain ⟨-, -, -, answered⟩ :=
    refresh_provenance .checkFirst .ofText 1 .default [] 0 ⟨[⟨.ok .empty, 5⟩], 0⟩ moves
  exact ⟨hf, rfl, answered 1 9 .empty hf⟩

end ModelRegistry.Session
