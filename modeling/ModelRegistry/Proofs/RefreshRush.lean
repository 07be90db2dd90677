import ModelRegistry.Proofs.BeginningOrder

/-!
# A rush of refreshes

Some refreshes are to come to the gate in a clocked run while no answer is valid, and
discovery is to fail a number of times before it succeeds. While it fails, the refreshes
that have failed are the first ones of those that begin in the run, those at the gate are
the next ones in line, and the others have yet to begin. This says how the line moves,
whoever is in it and whichever of the callers are preferred at one instant; what
discovery answers, and when, comes later.
-/

namespace ModelRegistry

/-- The call has not begun. -/
def Phase.Starting : Phase → Prop
  | .starting .. => True
  | _ => False

/-- A call that has not begun was made for an instant. -/
theorem InPhase.starting {calls : List Phase} {caller : Nat}
    (h : InPhase Phase.Starting calls caller) :
    ∃ due request, calls[caller]? = some (.starting due request) := by
  obtain ⟨phase, hp, hs⟩ := h
  cases phase with
  | starting due request => exact ⟨due, request, hp⟩
  | queued interval => exact hs.elim
  | fetching turn interval outcome due => exact hs.elim
  | finished time answer => exact hs.elim

namespace Source

/-- The source after some calls. -/
def afterCalls (source : Source) : Nat → Source
  | 0 => source
  | calls + 1 => (source.afterCalls calls).afterCall

/-- The source counts every call. -/
theorem calls_afterCalls (source : Source) (calls : Nat) :
    (source.afterCalls calls).calls = source.calls + calls := by
  induction calls with
  | zero => rfl
  | succ calls ih =>
    have hs : (source.afterCalls (calls + 1)).calls = (source.afterCalls calls).calls + 1 := rfl
    omega

/-- A call takes the first response as long as others are to come. -/
theorem responses_afterCalls {source : Source} {replies more : List Response}
    (h : source.responses = replies ++ more) {calls : Nat} (left : calls < replies.length) :
    (source.afterCalls calls).responses = replies.drop calls ++ more := by
  induction calls with
  | zero => exact h
  | succ calls ih =>
    have hr := ih (Nat.lt_of_succ_lt left)
    rw [List.drop_eq_getElem_cons (Nat.lt_of_succ_lt left)] at hr
    rw [afterCalls, afterCall, hr, List.drop_eq_getElem_cons left]
    rfl

/-- The responses of a source are given in their order. -/
theorem response_afterCalls {source : Source} {replies more : List Response}
    (h : source.responses = replies ++ more) {calls : Nat} {response : Response}
    (hr : replies[calls]? = some response) : (source.afterCalls calls).response = response := by
  obtain ⟨hl, hg⟩ := List.getElem?_eq_some_iff.mp hr
  have hd := responses_afterCalls h hl
  rw [List.drop_eq_getElem_cons hl, hg] at hd
  rw [Source.response, hd]
  rfl

/-- A source that is to fail and then to succeed fails in order. -/
theorem response_of_failures {source : Source} {failures : List (DiscoveryError × Nat)}
    {last : Response} {more : List Response}
    (h : source.responses =
      failures.map (fun failure => ⟨.error failure.1, failure.2⟩) ++ last :: more)
    {index : Nat} {failure : DiscoveryError × Nat} (hf : failures[index]? = some failure) :
    (source.afterCalls index).response = ⟨.error failure.1, failure.2⟩ := by
  refine response_afterCalls h ?_
  rw [List.getElem?_map, hf]
  rfl

/-- A source that is to fail and then to succeed succeeds after its failures. -/
theorem response_of_success {source : Source} {failures : List (DiscoveryError × Nat)}
    {last : Response} {more : List Response}
    (h : source.responses =
      failures.map (fun failure => ⟨.error failure.1, failure.2⟩) ++ last :: more) :
    (source.afterCalls failures.length).response = last := by
  rw [List.append_cons] at h
  refine response_afterCalls h ?_
  rw [List.getElem?_append_right (by rw [List.length_map]), List.length_map, Nat.sub_self]
  rfl

end Source

/-- Refreshes that are to come to the gate while no answer is valid, and what
discovery is to answer. -/
structure Rush where
  /-- The session in which all calls were made and none has begun. -/
  first : Session
  /-- Which of the callers are preferred at one instant. -/
  precedes : Nat → Nat → Prop
  /-- The turns until all calls are over. -/
  moves : List Session.Move
  /-- They are a clocked run. -/
  clocked : Session.Clocked precedes .checkFirst first moves
  /-- The failures of discovery, each with the time that it takes. -/
  failures : List (DiscoveryError × Nat)
  /-- The resources that discovery finds after the failures. -/
  resources : ResourceSet
  /-- The time that it takes to find them. -/
  latency : Nat
  /-- The calls are underway. -/
  underway : first.Underway first
  /-- Nobody is at the gate. -/
  away : ∀ caller, ¬InPhase Phase.AtGate first.calls caller
  /-- All other calls are quiet. -/
  quiet : ∀ (caller : Nat) due query,
    first.calls[caller]? = some (.starting due (.query query)) → query.Quiet
  /-- No answer is valid. -/
  due : first.mapper.refresh.Due first.now
  /-- Discovery is to fail. -/
  fails : ∀ index failure, failures[index]? = some failure →
    (first.source.afterCalls index).response = ⟨.error failure.1, failure.2⟩
  /-- Then it is to succeed. -/
  succeeds : (first.source.afterCalls failures.length).response = ⟨.ok resources, latency⟩
  /-- It is to succeed within the interval of the refresh that is told so, and all are
  to begin within that interval; the platform clock holds its end. -/
  inTime : ∀ caller due interval,
    (Session.begun .checkFirst first moves)[failures.length]? = some caller →
    first.Refreshes caller due interval →
    latency < interval.nanos ∧
      due + (failures.map Prod.snd).sum + interval.nanos ≤ Instant.latest ∧
      ∀ other later another, first.Refreshes other later another → later < due + interval.nanos

namespace Rush

open Session

variable {rush : Rush}

/-- The callers that refresh, in the order in which they begin. -/
def order (rush : Rush) : List Nat := begun .checkFirst rush.first rush.moves

/-- The order is that of the refreshes. -/
theorem mem_order (rush : Rush) (caller : Nat) :
    caller ∈ rush.order ↔ ∃ due interval, rush.first.Refreshes caller due interval :=
  (rush.clocked.mem_begun_iff rush.underway.orderly).trans inPhase_toRefresh_iff

/-- Nobody is twice in it. -/
theorem nodup_order (rush : Rush) : rush.order.Nodup :=
  rush.clocked.nodup_begun rush.underway.orderly

/-- The first refreshes of the order were told of the failures, each of its own. -/
def Failed (rush : Rush) (ended : Nat) (calls : List Phase) : Prop :=
  ∀ index caller failure, index < ended → rush.order[index]? = some caller →
    rush.failures[index]? = some failure →
    ∃ time, calls[caller]? = some (.finished time (.failed failure.1))

/-- A refresh that has failed stays so when another call goes on. -/
theorem Failed.set {ended caller : Nat} {calls : List Phase} {old : Phase}
    (h : rush.Failed ended calls) (hp : calls[caller]? = some old) (hn : ¬old.Finished)
    (new : Phase) : rush.Failed ended (calls.set caller new) := by
  intro index other failure hi ho hf
  obtain ⟨time, ht⟩ := h index other failure hi ho hf
  have hne : caller ≠ other := by
    rintro rfl
    rw [hp] at ht
    cases ht
    exact hn ⟨time, _, rfl⟩
  exact ⟨time, (List.getElem?_set_ne hne).trans ht⟩

/-- A refresh that is not over comes after those that have failed. -/
theorem Failed.mem_drop {ended caller : Nat} {calls : List Phase} {phase : Phase}
    (h : rush.Failed ended calls) (few : ended ≤ rush.failures.length)
    (hm : caller ∈ rush.order) (hp : calls[caller]? = some phase) (hn : ¬phase.Finished) :
    caller ∈ rush.order.drop ended := by
  rw [← List.take_append_drop ended rush.order, List.mem_append] at hm
  refine hm.resolve_left fun ht => ?_
  obtain ⟨index, hi⟩ := List.mem_iff_getElem?.mp ht
  rw [List.getElem?_take] at hi
  split at hi
  · rename_i hl
    have hf : rush.failures[index]? = some rush.failures[index] := List.getElem?_eq_getElem _
    obtain ⟨time, hd⟩ := h index caller _ hl hi hf
    rw [hp] at hd
    cases hd
    exact hn ⟨time, _, rfl⟩
  · cases hi

/-- A refresh comes after as many as come before its place. -/
theorem mem_drop_of_getElem? {ended index caller : Nat} (h : ended ≤ index)
    (ho : rush.order[index]? = some caller) : caller ∈ rush.order.drop ended := by
  have hd : (rush.order.drop ended)[index - ended]? = some caller := by
    rw [List.getElem?_drop, Nat.add_sub_cancel' h, ho]
  exact List.mem_of_getElem? hd

/-- The refresh that begins at an instant is in order. -/
theorem mem_of_refreshes {caller : Nat} {due : Instant} {interval : Duration}
    (h : rush.first.Refreshes caller due interval) : caller ∈ rush.order :=
  (rush.mem_order caller).mpr ⟨due, interval, h⟩

/-- A call in the order that has not begun is a refresh. -/
theorem refreshes_of_starting {session : Session} (underway : rush.first.Underway session)
    {caller : Nat} {due : Instant} {request : Request} (hm : caller ∈ rush.order)
    (hp : session.calls[caller]? = some (.starting due request)) :
    ∃ interval, rush.first.Refreshes caller due interval := by
  have hc := (underway.came caller _ hp).1
  obtain ⟨begin, interval, asked, ha, hi⟩ := (rush.mem_order caller).mp hm
  rw [hc] at ha
  cases ha
  exact ⟨interval, asked, hc, hi⟩

/-- A call answered at once is not in the order. -/
theorem not_mem_of_query {session : Session} (underway : rush.first.Underway session)
    {caller : Nat} {due : Instant} {query : Query}
    (hp : session.calls[caller]? = some (.starting due (.query query))) :
    caller ∉ rush.order := by
  intro hm
  have hc := (underway.came caller _ hp).1
  obtain ⟨begin, interval, asked, ha, -⟩ := (rush.mem_order caller).mp hm
  rw [hc] at ha
  cases ha

/-- A call answered at once changes nothing but the registry and its own phase. -/
theorem finish_ask {session : Session} (underway : rush.first.Underway session) {caller : Nat}
    {due : Instant} {query : Query}
    (ready : session.ready? caller = some (.starting due (.query query))) :
    ∃ registry, (session.ask query).1.finish caller (session.ask query).2 =
      { session with
        mapper := { session.mapper with registry := registry }
        calls := session.calls.set caller (.finished session.now (session.ask query).2) } := by
  have hp := getElem?_of_ready? ready
  have hq := rush.quiet caller due query (underway.came caller _ hp).1
  exact session.finish_ask_of_quiet caller hq

/-- While discovery fails, the refreshes that have failed are the first ones of the
order, those in line are the next ones, and the rest have not begun. -/
structure Lined (rush : Rush) (ended : Nat) (rest : List Nat) (session : Session) : Prop where
  /-- The calls are underway. -/
  underway : rush.first.Underway session
  /-- The first refreshes have failed. -/
  failed : rush.Failed ended session.calls
  /-- No more have failed than discovery has failed. -/
  few : ended ≤ rush.failures.length
  /-- No more have failed than there are. -/
  within : ended ≤ rush.order.length
  /-- The next ones are in line, before the rest. -/
  line : rush.order.drop ended = session.gate.line ++ rest
  /-- The rest have not begun. -/
  coming : ∀ caller ∈ rest, InPhase Phase.Starting session.calls caller
  /-- The stored answer is as it was. -/
  kept : session.mapper.refresh = rush.first.mapper.refresh
  /-- The mapper is as it was if there are only refreshes. -/
  whole : (∀ (caller : Nat) due query,
    rush.first.calls[caller]? ≠ some (.starting due (.query query))) →
    session.mapper = rush.first.mapper

namespace Lined

variable {ended caller : Nat} {rest : List Nat} {session : Session}

/-- While discovery fails no answer is valid. -/
theorem due (h : rush.Lined ended rest session) : session.mapper.refresh.Due session.now := by
  rw [h.kept]
  exact rush.due.mono h.underway.later

/-- While discovery fails nobody is served. -/
theorem cached? (h : rush.Lined ended rest session) (resources : ResourceSet) :
    session.mapper.refresh.cached? session.now ≠ some resources := by
  rw [RefreshState.cached?_eq_none_iff.mpr h.due]
  exact (Option.some_ne_none resources).symm

/-- The line is kept while time passes. -/
theorem pass (h : rush.Lined ended rest session) {precedes : Nat → Nat → Prop} {time : Instant}
    (chosen : Chosen precedes session time caller) :
    rush.Lined ended rest { session with now := time } where
  underway := h.underway.pass chosen
  failed := h.failed
  few := h.few
  within := h.within
  line := h.line
  coming := h.coming
  kept := h.kept
  whole := h.whole

/-- Whoever holds the gate is the next one in order. -/
theorem getElem?_of_holder (h : rush.Lined ended rest session)
    (held : session.gate.holder = some caller) : rush.order[ended]? = some caller := by
  have hl := h.line
  rw [Gate.line_of_held held] at hl
  rw [← List.head?_drop, hl]
  rfl

/-- Whoever is the first of the rest is not among the others. -/
theorem notMem_of_cons (h : rush.Lined ended (caller :: rest) session) : caller ∉ rest := by
  have hn := rush.nodup_order.sublist (List.drop_sublist ended rush.order)
  rw [h.line] at hn
  exact (List.nodup_cons.mp hn.of_append_right).1

/-- When all calls are over all refreshes have failed. -/
theorem ended_eq_length (h : rush.Lined ended rest session)
    (finished : ∀ phase ∈ session.calls, phase.Finished) : ended = rush.order.length := by
  have hl := h.line
  have hline : session.gate.line = [] := by
    rw [h.underway.orderly.serves.eq_free (not_atGate_of_finished finished), Gate.line_free]
  have hrest : rest = [] := by
    refine List.eq_nil_iff_forall_not_mem.mpr fun caller hm => ?_
    obtain ⟨due, request, hp⟩ := (h.coming caller hm).starting
    exact Phase.not_finished_starting due request (finished _ (List.mem_of_getElem? hp))
  rw [hline, hrest] at hl
  exact Nat.le_antisymm h.within (List.drop_eq_nil_iff.mp hl)

/-- Those who have not begun stay so when another call goes on. -/
theorem starting_set {calls : List Phase} {rest : List Nat} {new : Phase}
    (h : ∀ other ∈ rest, InPhase Phase.Starting calls other) (hc : caller ∉ rest) :
    ∀ other ∈ rest, InPhase Phase.Starting (calls.set caller new) other := by
  intro other ho
  obtain ⟨phase, hp, hs⟩ := h other ho
  have hne : caller ≠ other := fun he => hc (he ▸ ho)
  exact ⟨phase, (List.getElem?_set_ne hne).trans hp, hs⟩

/-- A call that is not about to begin is not one of the rest. -/
theorem notMem_of_not_starting (h : rush.Lined ended rest session) {phase : Phase}
    (hp : session.calls[caller]? = some phase) (hs : ¬phase.Starting) : caller ∉ rest :=
  fun hm => hs ((inPhase_iff hp).mp (h.coming caller hm))

/-- While a refresh does not fail the line is kept if the next ones are in it. -/
theorem set (h : rush.Lined ended rest session) {after : Session} {old new : Phase}
    {left : List Nat} (underway : rush.first.Underway after)
    (mapper : after.mapper = session.mapper) (hp : session.calls[caller]? = some old)
    (hn : ¬old.Finished) (calls : after.calls = session.calls.set caller new)
    (hl : rush.order.drop ended = after.gate.line ++ left) (hc : caller ∉ left)
    (hs : left ⊆ rest) : rush.Lined ended left after where
  underway := underway
  failed := calls ▸ h.failed.set hp hn new
  few := h.few
  within := h.within
  line := hl
  coming := calls ▸ starting_set (fun other ho => h.coming other (hs ho)) hc
  kept := mapper ▸ h.kept
  whole hq := mapper.trans (h.whole hq)

/-- The line is kept by a call that is answered at once. -/
theorem asked (h : rush.Lined ended rest session) {due : Instant} {query : Query}
    (ready : session.ready? caller = some (.starting due (.query query))) :
    rush.Lined ended rest ((session.ask query).1.finish caller (session.ask query).2) := by
  have hp := getElem?_of_ready? ready
  have ht : Turned .checkFirst session caller _ := .asked ready
  have hu := h.underway.turned (rush.quiet caller) ht
  obtain ⟨registry, hr⟩ := finish_ask h.underway ready
  have hc : caller ∉ rest := fun hm => not_mem_of_query h.underway hp
    (List.mem_of_mem_drop (h.line ▸ List.mem_append_right _ hm))
  rw [hr] at hu ⊢
  exact {
    underway := hu
    failed := h.failed.set hp (Phase.not_finished_starting _ _) _
    few := h.few
    within := h.within
    line := h.line
    coming := starting_set h.coming hc
    kept := h.kept
    whole := fun hq => absurd (h.underway.came caller _ hp).1 (hq caller due query) }

/-- The line is kept by a refresh that queues: it is the first of the rest. -/
theorem queued (h : rush.Lined ended (caller :: rest) session) {due : Instant}
    {asked : Option Duration} {holder : Nat}
    (ready : session.ready? caller = some (.starting due (.refresh asked)))
    (held : session.gate.holder = some holder) {after : Session}
    (underway : rush.first.Underway after) (mapper : after.mapper = session.mapper)
    (gate : after.gate = ⟨some holder, session.gate.queue ++ [caller]⟩) {new : Phase}
    (calls : after.calls = session.calls.set caller new) : rush.Lined ended rest after := by
  have hg : after.gate.line = session.gate.line ++ [caller] := by
    rw [gate, Gate.line_of_held held, Gate.line]
    rfl
  refine h.set underway mapper (getElem?_of_ready? ready) (Phase.not_finished_starting _ _) calls
    ?_ h.notMem_of_cons (List.subset_cons_self caller rest)
  rw [h.line, hg, List.append_assoc, List.singleton_append]

/-- The line is kept by a refresh that obtains the gate and calls discovery: it is the first
of the rest, if it begins. -/
theorem obtained {left : List Nat} (h : rush.Lined ended rest session)
    (hrest : rest = session.beginner caller ++ left) {interval : Duration}
    (obtains : session.Obtains .checkFirst caller interval) {after : Session}
    (underway : rush.first.Underway after) (mapper : after.mapper = session.mapper)
    (gate : after.gate = ⟨some caller, session.gate.queue⟩) {new : Phase}
    (calls : after.calls = session.calls.set caller new) :
    rush.Lined ended left after := by
  have hg : after.gate.line = caller :: session.gate.queue := by
    rw [gate]
    rfl
  have hl := h.line
  cases obtains with
  | atOnce ready unserved free =>
    rw [beginner_of_refresh ready] at hrest
    subst hrest
    have hq : session.gate.queue = [] := h.underway.orderly.serves.fair free
    rw [Gate.Fair.line_eq_nil h.underway.orderly.serves.fair free] at hl
    refine h.set underway mapper (getElem?_of_ready? ready) (Phase.not_finished_starting _ _) calls
      ?_ h.notMem_of_cons (List.subset_cons_self caller left)
    rw [hl, hg, hq]
    rfl
  | handed ready =>
    obtain ⟨hp, held⟩ := ready?_queued_iff.mp ready
    rw [beginner_of_not_toRefresh ready id, List.nil_append] at hrest
    subst hrest
    refine h.set underway mapper hp (Phase.AtGate.not_finished trivial) calls ?_
      (h.notMem_of_not_starting hp id) (List.Subset.refl rest)
    rw [hl, hg, Gate.line_of_held held]

/-- When the holder of the gate is told of the next failure, the next one in line
holds the gate. -/
theorem left (h : rush.Lined ended rest session) {old : Phase}
    (hp : session.calls[caller]? = some old) (hn : ¬old.Finished) (hs : ¬old.Starting)
    (held : session.gate.holder = some caller) {failure : DiscoveryError × Nat}
    (hf : rush.failures[ended]? = some failure) {after : Session}
    (underway : rush.first.Underway after) (mapper : after.mapper = session.mapper)
    (gate : after.gate = session.gate.leave) {time : Instant}
    (calls : after.calls = session.calls.set caller (.finished time (.failed failure.1))) :
    rush.Lined (ended + 1) rest after := by
  have ho := h.getElem?_of_holder held
  have hd : rush.order.drop (ended + 1) = after.gate.line ++ rest := by
    rw [← List.tail_drop, h.line, Gate.line_of_held held, gate, Gate.line_leave]
    rfl
  refine
    { underway := underway
      failed := ?_
      few := (List.getElem?_eq_some_iff.mp hf).1
      within := (List.getElem?_eq_some_iff.mp ho).1
      line := hd
      coming := calls ▸ starting_set h.coming (h.notMem_of_not_starting hp hs)
      kept := mapper ▸ h.kept
      whole := fun hq => mapper.trans (h.whole hq) }
  intro index other error hi hother herror
  rw [calls]
  rcases Nat.lt_succ_iff_lt_or_eq.mp hi with hlt | rfl
  · exact h.failed.set hp hn _ index other error hlt hother herror
  · rw [ho] at hother
    rw [hf] at herror
    cases hother
    cases herror
    exact ⟨time, getElem?_set_of_getElem? hp _⟩

end Lined

end Rush

end ModelRegistry
