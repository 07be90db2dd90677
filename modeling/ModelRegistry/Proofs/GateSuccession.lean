import ModelRegistry.Proofs.RefreshRush

/-!
# Refreshes in succession

A rush of refreshes goes through three stages, the first two time and again: the
gate was handed on and nobody waits for discovery; its holder waits; and at last
discovery has succeeded and the answer is stored. Each failure is told to the one
who waited for it, and the next in line calls discovery again. Once the answer is
stored all the others are served it, since none of them comes after its deadline.
Every turn that may be next keeps the stages, so when all calls are over it is known
what each refresh was answered; at what time is not said.
-/

namespace ModelRegistry

/-- A refresh can still be served an answer before its deadline, or was. -/
def Phase.Served (resources : ResourceSet) (deadline now : Instant) : Phase → Prop
  | .starting due _ => due < deadline
  | .queued _ => now < deadline
  | .fetching .. => False
  | .finished _ answer => answer = .resources resources

/-- Nobody waits for discovery when a call goes on and does not begin to. -/
theorem not_fetching_set {calls : List Phase} {caller : Nat} {old new : Phase}
    (h : ∀ caller, ¬InPhase Phase.Fetching calls caller) (hp : calls[caller]? = some old)
    (hn : ¬new.Fetching) (other : Nat) :
    ¬InPhase Phase.Fetching (calls.set caller new) other := by
  intro hf
  rcases (inPhase_set hp new).mp hf with ⟨-, hnew⟩ | ⟨-, hother⟩
  · exact hn hnew
  · exact h other hother

namespace Rush

open Session

variable {rush : Rush}

/-- The time that the first failures take. -/
def elapsed (rush : Rush) (ended : Nat) : Nat := ((rush.failures.take ended).map Prod.snd).sum

/-- One more failure takes its own time. -/
theorem elapsed_succ {ended : Nat} {failure : DiscoveryError × Nat}
    (h : rush.failures[ended]? = some failure) :
    rush.elapsed (ended + 1) = rush.elapsed ended + failure.2 := by
  simp only [elapsed, List.take_add_one, h, Option.toList_some, List.map_append, List.map_cons,
    List.map_nil, List.sum_append, List.sum_singleton]

/-- What discovery answers after some failures. -/
def reply (rush : Rush) (ended : Nat) : Response := (rush.first.source.afterCalls ended).response

/-- An instant is no later than if all the failures before came one after another
since the refresh began that is told of the success. -/
def Punctual (rush : Rush) (ended : Nat) (instant : Instant) : Prop :=
  ∀ caller due interval, rush.order[rush.failures.length]? = some caller →
    rush.first.Refreshes caller due interval → instant ≤ due + rush.elapsed ended

/-- The gate was handed on, and nobody waits for discovery. -/
structure Handed (rush : Rush) (ended : Nat) (rest : List Nat) (session : Session) : Prop where
  /-- The next ones are in line. -/
  lined : rush.Lined ended rest session
  /-- Discovery was called once for each failure. -/
  source : session.source = rush.first.source.afterCalls ended
  /-- Nobody waits for discovery. -/
  nobody : ∀ caller, ¬InPhase Phase.Fetching session.calls caller
  /-- No more time has passed than the failures took. -/
  punctual : rush.Punctual ended session.now

/-- A caller waits for discovery. -/
structure Waiting (rush : Rush) (ended : Nat) (rest : List Nat) (caller : Nat) (turn : Instant)
    (interval : Duration) (session : Session) : Prop where
  /-- The next ones are in line. -/
  lined : rush.Lined ended rest session
  /-- Discovery was called once for each failure, and once more. -/
  source : session.source = rush.first.source.afterCalls (ended + 1)
  /-- The caller waits for the next response. -/
  fetching : session.calls[caller]? = some
    (.fetching turn interval (rush.reply ended).outcome (turn + (rush.reply ended).latency))
  /-- It obtained the gate when no more time had passed than the failures took. -/
  punctual : rush.Punctual ended turn
  /-- Its response is not overdue. -/
  prompt : session.now ≤ turn + (rush.reply ended).latency

/-- Discovery has succeeded and the answer is stored. -/
structure Stored (rush : Rush) (deadline : Instant) (session : Session) : Prop where
  /-- The calls are underway. -/
  underway : rush.first.Underway session
  /-- All failures were told. -/
  failed : rush.Failed rush.failures.length session.calls
  /-- Discovery was called once for each failure, and once more. -/
  source : session.source = rush.first.source.afterCalls (rush.failures.length + 1)
  /-- Somebody was left to be told of the success. -/
  within : rush.failures.length < rush.order.length
  /-- The answer is stored. -/
  stored : session.mapper.refresh = ⟨rush.resources, some deadline⟩
  /-- All others are served the answer. -/
  served : ∀ caller ∈ rush.order.drop rush.failures.length,
    InPhase (Phase.Served rush.resources deadline session.now) session.calls caller

/-- A rush is at one of its stages, when the rest of its refreshes are yet to begin. -/
inductive Stage (rush : Rush) (rest : List Nat) (session : Session) : Prop
  /-- The gate was handed on. -/
  | handed {ended : Nat} (h : rush.Handed ended rest session)
  /-- The holder of the gate waits for discovery. -/
  | waiting {ended caller : Nat} {turn : Instant} {interval : Duration}
      (h : rush.Waiting ended rest caller turn interval session)
  /-- The answer is stored. -/
  | stored {deadline : Instant} (h : rush.Stored deadline session)

namespace Handed

variable {ended caller : Nat} {rest left : List Nat} {session : Session}

/-- Nobody waits for discovery until the next turn, and no more time passes than the
failures took. -/
theorem pass (h : rush.Handed ended rest session) {precedes : Nat → Nat → Prop} {time : Instant}
    (chosen : Chosen precedes session time caller) :
    rush.Handed ended rest { session with now := time } where
  lined := h.lined.pass chosen
  source := h.source
  nobody := h.nobody
  punctual last due interval ho hr := by
    have hm : last ∈ rush.order.drop ended := mem_drop_of_getElem? h.lined.few ho
    rw [h.lined.line, List.mem_append] at hm
    -- No time passes while the last one is in line; before that its own beginning is the bound.
    rcases hm with hline | hrest
    · have hn := h.lined.underway.le_now_of_line chosen hline h.nobody
      exact Nat.le_trans hn (h.punctual last due interval ho hr)
    · obtain ⟨begin, request, hp⟩ := (h.lined.coming last hrest).starting
      obtain ⟨another, hr'⟩ := refreshes_of_starting h.lined.underway (mem_of_refreshes hr) hp
      obtain ⟨rfl, -⟩ := hr'.unique hr
      have hle := chosen.le hp (show session.due? last _ = some begin from rfl)
      rw [Nat.max_eq_left (h.lined.underway.came last _ hp).2] at hle
      exact Nat.le_trans hle (Nat.le_add_right begin _)

/-- Whatever happens in a turn while the gate was handed on, the rush is at a stage
afterwards: the one who obtains the gate waits for discovery. -/
theorem turned (h : rush.Handed ended rest session) (hrest : rest = session.beginner caller ++ left)
    {phase : Phase} (ready : session.ready? caller = some phase) {after : Session}
    (ht : Turned .checkFirst session caller after) : rush.Stage left after := by
  have hu := h.lined.underway.turned (rush.quiet caller) ht
  cases ht with
  | idle waits =>
    rw [ready] at waits
    cases waits
  | asked ready =>
    have hl := h.lined.asked ready
    obtain ⟨registry, hr⟩ := finish_ask h.lined.underway ready
    rw [beginner_of_not_toRefresh ready id, List.nil_append] at hrest
    rw [hr, hrest] at hl
    rw [hr]
    exact .handed
      ⟨hl, h.source, not_fetching_set h.nobody (getElem?_of_ready? ready) id, h.punctual⟩
  | served ready look cached => exact absurd cached (h.lined.cached? _)
  | queued ready unserved held =>
    rw [beginner_of_refresh ready] at hrest
    have hl := (hrest ▸ h.lined).queued ready held hu rfl rfl rfl
    exact .handed
      ⟨hl, h.source, not_fetching_set h.nobody (getElem?_of_ready? ready) id, h.punctual⟩
  | took obtains cached => exact absurd cached (h.lined.cached? _)
  | discovered obtains cached =>
    have hl := h.lined.obtained hrest obtains hu rfl rfl rfl
    obtain ⟨phase, hp, -⟩ := obtains.getElem?
    have hr : session.source.response = rush.reply ended := by rw [h.source, reply]
    have hw : rush.Waiting ended left caller session.now _ _ :=
      { lined := hl
        source := by rw [h.source]; rfl
        fetching := by rw [← hr]; exact getElem?_set_of_getElem? hp _
        punctual := h.punctual
        prompt := Nat.le_add_right session.now _ }
    exact .waiting hw
  | failed ready => exact absurd ⟨_, getElem?_of_ready? ready, trivial⟩ (h.nobody caller)
  | committed ready => exact absurd ⟨_, getElem?_of_ready? ready, trivial⟩ (h.nobody caller)

end Handed

namespace Waiting

variable {ended caller other : Nat} {rest left : List Nat} {turn : Instant} {interval : Duration}
  {session : Session}

/-- Whoever waits for discovery holds the gate. -/
theorem held (h : rush.Waiting ended rest caller turn interval session) :
    session.gate.holder = some caller := h.lined.underway.orderly.held_of_fetching h.fetching

/-- Nobody else waits for discovery, and nothing else is waited for. -/
theorem unique (h : rush.Waiting ended rest caller turn interval session) {began due : Instant}
    {another : Duration} {outcome : DiscoveryOutcome}
    (hp : session.calls[other]? = some (.fetching began another outcome due)) :
    other = caller ∧ began = turn ∧ another = interval ∧ outcome = (rush.reply ended).outcome := by
  have hh := h.lined.underway.orderly.held_of_fetching hp
  rw [h.held] at hh
  cases hh
  have hf := h.fetching
  rw [hp] at hf
  cases hf
  exact ⟨rfl, rfl, rfl, rfl⟩

/-- Nobody obtains the gate while its holder waits for discovery. -/
theorem not_obtains (h : rush.Waiting ended rest caller turn interval session)
    (another : Duration) : ¬session.Obtains .checkFirst other another := by
  intro obtains
  cases obtains with
  | atOnce ready unserved free =>
    rw [h.held] at free
    cases free
  | handed ready =>
    obtain ⟨hp, hh⟩ := ready?_queued_iff.mp ready
    have hf := h.fetching
    rw [h.held] at hh
    cases hh
    rw [hp] at hf
    cases hf

/-- Discovery is waited for until the next turn, and its response is not overdue. -/
theorem pass (h : rush.Waiting ended rest caller turn interval session)
    {precedes : Nat → Nat → Prop} {time : Instant} (chosen : Chosen precedes session time other) :
    rush.Waiting ended rest caller turn interval { session with now := time } where
  lined := h.lined.pass chosen
  source := h.source
  fetching := h.fetching
  punctual := h.punctual
  prompt := by
    have hn := chosen.le h.fetching rfl
    rw [Nat.max_eq_left h.prompt] at hn
    exact hn

/-- Discovery is waited for while another call goes on without calling it. -/
theorem frame (h : rush.Waiting ended rest caller turn interval session) {after : Session}
    {old new : Phase} (hp : session.calls[other]? = some old) (hn : ¬old.Fetching)
    (lined : rush.Lined ended left after) (source : after.source = session.source)
    (calls : after.calls = session.calls.set other new) (now : after.now = session.now) :
    rush.Waiting ended left caller turn interval after where
  lined := lined
  source := source.trans h.source
  fetching := by
    have hne : other ≠ caller := by
      rintro rfl
      exact hn ((inPhase_iff hp).mp ⟨_, h.fetching, trivial⟩)
    rw [calls, List.getElem?_set_ne hne]
    exact h.fetching
  punctual := h.punctual
  prompt := now ▸ h.prompt

/-- When discovery has failed its refresh is told so and the gate is handed on. -/
theorem failed (h : rush.Waiting ended rest caller turn interval session) {error : DiscoveryError}
    (outcome : (rush.reply ended).outcome = .error error) {after : Session}
    (underway : rush.first.Underway after) (mapper : after.mapper = session.mapper)
    (gate : after.gate = session.gate.leave) (source : after.source = session.source)
    (calls : after.calls = session.calls.set caller (.finished session.now (.failed error)))
    (now : after.now = session.now) : rush.Handed (ended + 1) rest after := by
  have hlt : ended < rush.failures.length := by
    refine Nat.lt_of_le_of_ne h.lined.few fun he => ?_
    rw [reply, he, rush.succeeds] at outcome
    cases outcome
  have hf : rush.failures[ended]? = some rush.failures[ended] := List.getElem?_eq_getElem hlt
  have hr : rush.reply ended = ⟨.error rush.failures[ended].1, rush.failures[ended].2⟩ :=
    rush.fails ended _ hf
  rw [hr] at outcome
  cases outcome
  refine
    { lined := h.lined.left h.fetching (Phase.AtGate.not_finished trivial) id h.held hf underway
        mapper gate calls
      source := source.trans h.source
      nobody := ?_
      punctual := ?_ }
  · rw [calls]
    exact h.lined.underway.orderly.serves.quiet h.fetching h.held id
  · intro last due another ho hl
    have hb := h.punctual last due another ho hl
    have hn := h.prompt
    rw [hr] at hn
    rw [now, elapsed_succ hf, ← Nat.add_assoc]
    exact Nat.le_trans hn (Nat.add_le_add_right hb _)

/-- When discovery has succeeded the answer is stored before its deadline, to which
nobody else comes too late. -/
theorem committed (h : rush.Waiting ended rest caller turn interval session)
    {resources : ResourceSet} (outcome : (rush.reply ended).outcome = .ok resources)
    {after : Session} (underway : rush.first.Underway after)
    (mapper : after.mapper = session.mapper.commit turn interval resources)
    (source : after.source = session.source)
    (calls : after.calls = session.calls.set caller (.finished session.now (.resources resources)))
    (now : after.now = session.now) : rush.Stored (turn + interval.nanos) after := by
  have hend : ended = rush.failures.length := by
    refine Nat.le_antisymm h.lined.few (Nat.le_of_not_lt fun hlt => ?_)
    rw [reply, rush.fails ended _ (List.getElem?_eq_getElem hlt)] at outcome
    cases outcome
  subst hend
  have hr : rush.reply rush.failures.length = ⟨.ok rush.resources, rush.latency⟩ := rush.succeeds
  rw [hr] at outcome
  cases outcome
  have ho := h.lined.getElem?_of_holder h.held
  obtain ⟨due, href, hdue, -⟩ := h.lined.underway.came caller _ h.fetching
  obtain ⟨hlatency, hlatest, hstarts⟩ := rush.inTime caller due interval ho href
  have hturn := h.punctual caller due interval ho href
  rw [elapsed, List.take_length] at hturn
  have hprompt := h.prompt
  rw [hr] at hprompt
  have hdeadline : turn + interval.nanos ≤ Instant.latest :=
    Nat.le_trans (Nat.add_le_add_right hturn _) hlatest
  have hnow : session.now < turn + interval.nanos :=
    Nat.lt_of_le_of_lt hprompt (Nat.add_lt_add_left hlatency turn)
  refine
    { underway := underway
      failed := calls ▸ h.lined.failed.set h.fetching (Phase.AtGate.not_finished trivial) _
      source := source.trans h.source
      within := (List.getElem?_eq_some_iff.mp ho).1
      stored := ?_
      served := ?_ }
  · have hd := h.lined.underway.orderly.due_of_fetching h.fetching
    rw [mapper, Mapper.commit, RefreshState.commit_of_due hd,
      RefreshState.deadlineAfter_of_le hdeadline]
  · intro other hm
    rw [calls, now, inPhase_set h.fetching]
    by_cases he : other = caller
    · exact .inl ⟨he, rfl⟩
    · rw [h.lined.line, List.mem_append] at hm
      refine .inr ⟨he, ?_⟩
      -- Those in line are served now, and the others begin before the deadline.
      rcases hm with hline | hrest
      · have hgate := (h.lined.underway.orderly.serves.mem_line other).mp hline
        rcases hgate.atGate with ⟨another, hp⟩ | ⟨_, _, _, _, hp⟩
        · exact ⟨_, hp, hnow⟩
        · exact absurd (h.unique hp).1 he
      · obtain ⟨begin, request, hp⟩ := (h.lined.coming other hrest).starting
        have hmem : other ∈ rush.order := List.mem_of_mem_drop
          (h.lined.line ▸ List.mem_append_right _ hrest)
        obtain ⟨another, hother⟩ := refreshes_of_starting h.lined.underway hmem hp
        have hb := hstarts other begin another hother
        exact ⟨_, hp, Nat.lt_of_lt_of_le hb (Nat.add_le_add_right hdue _)⟩

/-- Whatever happens in a turn while discovery is waited for, the rush is at a stage
afterwards. -/
theorem turned (h : rush.Waiting ended rest caller turn interval session)
    (hrest : rest = session.beginner other ++ left) {phase : Phase}
    (ready : session.ready? other = some phase) {after : Session}
    (ht : Turned .checkFirst session other after) : rush.Stage left after := by
  have hu := h.lined.underway.turned (rush.quiet other) ht
  cases ht with
  | idle waits =>
    rw [ready] at waits
    cases waits
  | asked ready =>
    have hl := h.lined.asked ready
    obtain ⟨registry, hr⟩ := finish_ask h.lined.underway ready
    rw [beginner_of_not_toRefresh ready id, List.nil_append] at hrest
    rw [hr, hrest] at hl
    rw [hr]
    exact .waiting (h.frame (getElem?_of_ready? ready) id hl rfl rfl rfl)
  | served ready look cached => exact absurd cached (h.lined.cached? _)
  | queued ready unserved held =>
    rw [beginner_of_refresh ready] at hrest
    have hl := (hrest ▸ h.lined).queued ready held hu rfl rfl rfl
    exact .waiting (h.frame (getElem?_of_ready? ready) id hl rfl rfl rfl)
  | took obtains cached => exact absurd obtains (h.not_obtains _)
  | discovered obtains cached => exact absurd obtains (h.not_obtains _)
  -- Only the caller waits for discovery, so this is its own turn.
  | failed ready =>
    rw [beginner_of_not_toRefresh ready id, List.nil_append] at hrest
    subst hrest
    obtain ⟨rfl, rfl, rfl, ho⟩ := h.unique (getElem?_of_ready? ready)
    exact .handed (h.failed ho.symm hu rfl rfl rfl rfl rfl)
  | committed ready =>
    obtain ⟨rfl, rfl, rfl, ho⟩ := h.unique (getElem?_of_ready? ready)
    exact .stored (h.committed ho.symm hu rfl rfl rfl rfl)

end Waiting

namespace Stored

variable {deadline : Instant} {caller : Nat} {session : Session}

/-- A refresh that is not over can still be served the answer. -/
theorem served_of_refreshes (h : rush.Stored deadline session) {due : Instant}
    {interval : Duration} (hr : rush.first.Refreshes caller due interval) {phase : Phase}
    (hp : session.calls[caller]? = some phase) (hn : ¬phase.Finished) :
    phase.Served rush.resources deadline session.now :=
  (inPhase_iff hp).mp
    (h.served caller (h.failed.mem_drop (Nat.le_refl _) (mem_of_refreshes hr) hp hn))

/-- Nobody waits for discovery once the answer is stored. -/
theorem nobody (h : rush.Stored deadline session) (caller : Nat) :
    ¬InPhase Phase.Fetching session.calls caller := by
  intro hf
  obtain ⟨turn, interval, outcome, due, hp⟩ := hf.fetching
  obtain ⟨begin, hr, -⟩ := h.underway.came caller _ hp
  exact h.served_of_refreshes hr hp (Phase.AtGate.not_finished trivial)

/-- Whoever can be served now comes before the deadline. -/
theorem cached? (h : rush.Stored deadline session) (now : session.now < deadline) :
    session.mapper.refresh.cached? session.now = some rush.resources :=
  RefreshState.cached?_eq_some_iff.mpr ⟨deadline, by rw [h.stored], now, by rw [h.stored]⟩

/-- A refresh that begins comes before the deadline. -/
theorem lt_of_starting (h : rush.Stored deadline session) {due : Instant}
    {asked : Option Duration}
    (ready : session.ready? caller = some (.starting due (.refresh asked))) :
    session.now < deadline := by
  have hp := getElem?_of_ready? ready
  obtain ⟨hc, hle⟩ := h.underway.came caller _ hp
  have hlt : due < deadline :=
    h.served_of_refreshes ⟨asked, hc, rfl⟩ hp (Phase.not_finished_starting _ _)
  exact Nat.lt_of_le_of_lt hle hlt

/-- A refresh that obtains the gate comes before the deadline. -/
theorem lt_of_obtains (h : rush.Stored deadline session) {interval : Duration}
    (obtains : session.Obtains .checkFirst caller interval) : session.now < deadline := by
  cases obtains with
  | atOnce ready unserved free => exact h.lt_of_starting ready
  | handed ready =>
    have hp := getElem?_of_ready? ready
    obtain ⟨due, hr, -⟩ := h.underway.came caller _ hp
    exact h.served_of_refreshes hr hp (Phase.AtGate.not_finished trivial)

/-- The answer is stored, and the others are served it, until the next turn. -/
theorem pass (h : rush.Stored deadline session) {precedes : Nat → Nat → Prop} {time : Instant}
    (chosen : Chosen precedes session time caller) :
    rush.Stored deadline { session with now := time } where
  underway := h.underway.pass chosen
  failed := h.failed
  source := h.source
  within := h.within
  stored := h.stored
  served other hm := by
    obtain ⟨phase, hp, hserved⟩ := h.served other hm
    refine ⟨phase, hp, ?_⟩
    cases phase with
    | queued interval =>
      have hline := (h.underway.orderly.serves.mem_line other).mpr ⟨_, hp, trivial⟩
      exact Nat.lt_of_le_of_lt (h.underway.le_now_of_line chosen hline h.nobody) hserved
    | starting due request => exact hserved
    | fetching turn interval outcome due => exact hserved
    | finished time answer => exact hserved

/-- The others are still served the answer when one was. -/
theorem set (h : rush.Stored deadline session) {after : Session} {old new : Phase}
    (underway : rush.first.Underway after)
    (refresh : after.mapper.refresh = session.mapper.refresh)
    (source : after.source = session.source) (now : after.now = session.now)
    (hp : session.calls[caller]? = some old) (hn : ¬old.Finished)
    (calls : after.calls = session.calls.set caller new)
    (hnew : caller ∈ rush.order → new.Served rush.resources deadline session.now) :
    rush.Stored deadline after where
  underway := underway
  failed := calls ▸ h.failed.set hp hn new
  source := source.trans h.source
  within := h.within
  stored := refresh.trans h.stored
  served other hm := by
    rw [calls, now, inPhase_set hp]
    by_cases he : other = caller
    · exact .inl ⟨he, hnew (he ▸ List.mem_of_mem_drop hm)⟩
    · exact .inr ⟨he, h.served other hm⟩

/-- Whatever happens in a turn once the answer is stored, it stays so: discovery is
not called any more. -/
theorem turned (h : rush.Stored deadline session) {after : Session}
    (ht : Turned .checkFirst session caller after) : rush.Stored deadline after := by
  have hu := h.underway.turned (rush.quiet caller) ht
  cases ht with
  | idle waits => exact h
  | asked ready =>
    have hp := getElem?_of_ready? ready
    obtain ⟨registry, hr⟩ := finish_ask h.underway ready
    rw [hr] at hu ⊢
    exact h.set hu rfl rfl rfl hp (Phase.not_finished_starting _ _) rfl
      fun hm => absurd hm (not_mem_of_query h.underway hp)
  | served ready look cached =>
    have hp := getElem?_of_ready? ready
    have hc := h.cached? (h.lt_of_starting ready)
    rw [cached] at hc
    cases hc
    exact h.set hu rfl rfl rfl hp (Phase.not_finished_starting _ _) rfl fun _ => rfl
  | queued ready unserved held =>
    have hc := h.cached? (h.lt_of_starting ready)
    rw [unserved rfl] at hc
    cases hc
  | took obtains cached =>
    have hc := h.cached? (h.lt_of_obtains obtains)
    rw [cached] at hc
    cases hc
    obtain ⟨phase, hp, hs⟩ := obtains.getElem?
    exact h.set hu rfl rfl rfl hp (Phase.not_finished_of_not_spent hs) rfl fun _ => rfl
  | discovered obtains cached =>
    have hc := h.cached? (h.lt_of_obtains obtains)
    rw [cached] at hc
    cases hc
  | failed ready => exact absurd ⟨_, getElem?_of_ready? ready, trivial⟩ (h.nobody caller)
  | committed ready => exact absurd ⟨_, getElem?_of_ready? ready, trivial⟩ (h.nobody caller)

end Stored

/-- Before the first turn nobody is at the gate. -/
theorem handed_first (rush : Rush) : rush.Handed 0 rush.order rush.first where
  lined :=
    { underway := rush.underway
      failed := nofun
      few := Nat.zero_le _
      within := Nat.zero_le _
      line := by
        rw [rush.underway.orderly.serves.eq_free rush.away]
        rfl
      coming := by
        intro caller hm
        obtain ⟨due, interval, asked, hp, -⟩ := (rush.mem_order caller).mp hm
        exact ⟨_, hp, trivial⟩
      kept := rfl
      whole := fun _ => rfl }
  source := rfl
  nobody caller := by
    rintro ⟨phase, hp, hphase⟩
    exact rush.away caller ⟨phase, hp, hphase.atGate⟩
  punctual caller due interval ho hr := by
    obtain ⟨asked, hp, -⟩ := hr
    exact Nat.le_trans (rush.underway.came caller _ hp).2 (Nat.le_add_right due _)

/-- Every turn that may be next brings a rush from stage to stage. -/
theorem Stage.next {rest left : List Nat} {session : Session} (h : rush.Stage rest session)
    {precedes : Nat → Nat → Prop} {time : Instant} {caller : Nat}
    (chosen : Chosen precedes session time caller)
    (hrest : rest = { session with now := time : Session }.beginner caller ++ left) :
    rush.Stage left ({ session with now := time }.turn .checkFirst caller) := by
  obtain ⟨phase, ready⟩ := chosen.ready?
  cases h with
  | handed h =>
    have hp := h.pass chosen
    exact hp.turned hrest ready (hp.lined.underway.orderly.turned .checkFirst caller)
  | waiting h =>
    have hp := h.pass chosen
    exact hp.turned hrest ready (hp.lined.underway.orderly.turned .checkFirst caller)
  | stored h =>
    have hp := h.pass chosen
    exact .stored (hp.turned (hp.underway.orderly.turned .checkFirst caller))

/-- A rush is at one of its stages after a clocked run, if it was at one before, when those were
yet to begin that begin in the run. -/
theorem Stage.run {precedes : Nat → Nat → Prop} {session : Session} {moves : List Move}
    (clocked : Clocked precedes .checkFirst session moves)
    (h : rush.Stage (begun .checkFirst session moves) session) :
    rush.Stage [] (session.run .checkFirst moves) := by
  induction clocked with
  | ended finished => exact h
  | next chosen rest ih =>
    rw [run_next chosen.now_le]
    exact ih (h.next chosen (begun_next chosen.now_le .checkFirst _ _))

/-- When all calls are over, all others were served the answer. -/
theorem Stored.resources_of_finished {deadline : Instant} {session : Session}
    (h : rush.Stored deadline session) (finished : ∀ phase ∈ session.calls, phase.Finished)
    {caller : Nat} (hm : caller ∈ rush.order.drop rush.failures.length) :
    ∃ time, session.calls[caller]? = some (.finished time (.resources rush.resources)) := by
  obtain ⟨phase, hp, hserved⟩ := h.served caller hm
  obtain ⟨time, answer, rfl⟩ := finished phase (List.mem_of_getElem? hp)
  have ha : answer = .resources rush.resources := hserved
  exact ⟨time, ha ▸ hp⟩

/-- When all calls of a rush are over, each of the first refreshes was told of its own
failure. If there were not more refreshes than failures, discovery was called by each
and nothing was taken up; if there were more, discovery was called once more, and
all the others were served what it found. -/
theorem outcome (rush : Rush) :
    let last := rush.first.run .checkFirst rush.moves
    (∀ (index caller : Nat) failure, rush.order[index]? = some caller →
      rush.failures[index]? = some failure →
      ∃ time, last.calls[caller]? = some (.finished time (.failed failure.1))) ∧
    (rush.order.length ≤ rush.failures.length →
      last.source.calls = rush.first.source.calls + rush.order.length ∧
      last.mapper.refresh = rush.first.mapper.refresh ∧
      ((∀ (caller : Nat) due query,
        rush.first.calls[caller]? ≠ some (.starting due (.query query))) →
        last.mapper = rush.first.mapper)) ∧
    (rush.failures.length < rush.order.length →
      last.source.calls = rush.first.source.calls + rush.failures.length + 1 ∧
      ∀ (index caller : Nat), rush.failures.length ≤ index → rush.order[index]? = some caller →
        ∃ time, last.calls[caller]? = some (.finished time (.resources rush.resources))) := by
  intro last
  have finished : ∀ phase ∈ last.calls, phase.Finished := rush.clocked.finished
  have hstage : rush.Stage [] last := .run rush.clocked (.handed rush.handed_first)
  cases hstage with
  | handed h =>
    have hall := h.lined.ended_eq_length finished
    subst hall
    refine ⟨?_, fun _ => ⟨?_, h.lined.kept, h.lined.whole⟩, ?_⟩
    · intro index caller failure ho hf
      exact h.lined.failed index caller failure (List.getElem?_eq_some_iff.mp ho).1 ho hf
    · rw [h.source, Source.calls_afterCalls]
    · intro hmany
      exact absurd h.lined.few (Nat.not_le_of_lt hmany)
  | waiting h =>
    obtain ⟨time, answer, hp⟩ := finished _ (List.mem_of_getElem? h.fetching)
    cases hp
  | stored h =>
    refine ⟨?_, ?_, fun _ => ⟨?_, ?_⟩⟩
    · intro index caller failure ho hf
      exact h.failed index caller failure (List.getElem?_eq_some_iff.mp hf).1 ho hf
    · intro hfew
      exact absurd h.within (Nat.not_lt_of_le hfew)
    · rw [h.source, Source.calls_afterCalls]
      rfl
    · intro index caller hi ho
      exact h.resources_of_finished finished (mem_drop_of_getElem? hi ho)

end Rush

end ModelRegistry
