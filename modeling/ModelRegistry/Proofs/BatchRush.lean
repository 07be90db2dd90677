import ModelRegistry.Proofs.GateSuccession

/-!
# The refreshes of a batch

In a clocked run the refreshes of a batch are a rush if no answer is valid before and all
other calls are quiet. They begin in some order, each once; if of callers at the same
instant the one is preferred that called first, refreshes that begin at the same instant do
so in the order of the batch, and the one that is before all others begins first. What is
answered at a place of the batch is read off the outcome of the rush.
-/

namespace ModelRegistry

/-- Whether a call refreshes. -/
def Request.isRefresh : Request → Bool
  | .query _ => false
  | .refresh _ => true

namespace Session

/-- The callers that refresh, of a batch whose first caller is at a place. -/
def refreshers : List (Nat × Request) → Nat → List Nat
  | [], _ => []
  | entry :: rest, place =>
    if entry.2.isRefresh then place :: refreshers rest (place + 1) else refreshers rest (place + 1)

/-- A caller refreshes exactly if there is a refresh at its place. -/
theorem mem_refreshers {batch : List (Nat × Request)} {place caller : Nat} :
    caller ∈ refreshers batch place ↔
      ∃ index delay asked, caller = place + index ∧
        batch[index]? = some (delay, .refresh asked) := by
  induction batch generalizing place with
  | nil => simp [refreshers]
  | cons entry rest ih =>
    obtain ⟨delay, request⟩ := entry
    have hn : ∀ index, place + 1 + index = place + (index + 1) := by omega
    rw [← Nat.or_exists_add_one, refreshers]
    cases request with
    | query query => simp [Request.isRefresh, ih, hn]
    | refresh asked => simp [Request.isRefresh, ih, hn]

/-- The callers of a batch come one after another. -/
theorem sorted_refreshers (batch : List (Nat × Request)) (place : Nat) :
    (refreshers batch place).Pairwise (· < ·) := by
  induction batch generalizing place with
  | nil => exact .nil
  | cons entry rest ih =>
    rw [refreshers]
    split
    · refine List.pairwise_cons.mpr ⟨fun caller hm => ?_, ih (place + 1)⟩
      obtain ⟨index, -, -, rfl, -⟩ := mem_refreshers.mp hm
      omega
    · exact ih (place + 1)

/-- There are as many callers that refresh as refreshes. -/
theorem length_refreshers (batch : List (Nat × Request)) (place : Nat) :
    (refreshers batch place).length = batch.countP (·.2.isRefresh) := by
  induction batch generalizing place with
  | nil => rfl
  | cons entry rest ih =>
    rw [refreshers, List.countP_cons]
    split
    · rw [List.length_cons, ih]
    · rw [ih, Nat.add_zero]

/-- A refresh comes after as many as there are before it in the batch. -/
theorem getElem?_refreshers {batch : List (Nat × Request)} (place : Nat) {index delay : Nat}
    {asked : Option Duration} (h : batch[index]? = some (delay, .refresh asked)) :
    (refreshers batch place)[(batch.take index).countP (·.2.isRefresh)]? =
      some (place + index) := by
  induction batch generalizing place index with
  | nil => cases h
  | cons entry rest ih =>
    cases index with
    | zero =>
      cases h
      rfl
    | succ index =>
      have hi := ih (place + 1) h
      have hn : place + 1 + index = place + (index + 1) := by omega
      rw [List.take_succ_cons, refreshers, List.countP_cons]
      split
      · rw [List.getElem?_cons_succ, hi, hn]
      · exact hi.trans (congrArg some hn)

/-- Nobody is twice among the callers that refresh. -/
theorem nodup_refreshers (batch : List (Nat × Request)) (place : Nat) :
    (refreshers batch place).Nodup := (sorted_refreshers batch place).imp Nat.ne_of_lt

/-- The refreshes of a batch are those that it was made of. -/
theorem AtRest.refreshes_iff {session : Session} (h : session.AtRest) {admission : Admission}
    {batch : List (Nat × Request)} {caller : Nat} {due : Instant} {interval : Duration} :
    (session.call admission batch).Refreshes caller due interval ↔
      ∃ place delay asked, caller = session.calls.length + place ∧
        batch[place]? = some (delay, .refresh asked) ∧ due = session.now + delay ∧
        asked.getD session.mapper.config.refreshInterval = interval := by
  have hm : (session.call admission batch).mapper = session.mapper := by rw [call_eq]
  constructor
  · rintro ⟨asked, hp, rfl⟩
    obtain ⟨place, delay, request, rfl, hb, he⟩ :=
      h.exists_of_starting hp (Phase.not_finished_starting _ _)
    cases he
    exact ⟨place, delay, asked, rfl, hb, rfl, by rw [hm]⟩
  · rintro ⟨place, delay, asked, rfl, hb, rfl, rfl⟩
    refine ⟨asked, ?_, by rw [hm]⟩
    rw [calls_call_getElem?, hb]
    rfl

section

variable {session : Session} {precedes : Nat → Nat → Prop} {batch : List (Nat × Request)}
  {moves : List Move}

/-- The refreshes of a batch begin in some order, each once. -/
theorem AtRest.perm_begun (h : session.AtRest)
    (clocked : Clocked precedes .checkFirst (session.call .checkFirst batch) moves) :
    (begun .checkFirst (session.call .checkFirst batch) moves).Perm
      (refreshers batch session.calls.length) := by
  have ho := h.orderly.call .checkFirst batch
  refine (List.perm_ext_iff_of_nodup (clocked.nodup_begun ho)
    (nodup_refreshers batch session.calls.length)).mpr fun caller => ?_
  rw [clocked.mem_begun_iff ho, inPhase_toRefresh_iff, mem_refreshers]
  constructor
  · rintro ⟨due, interval, hr⟩
    obtain ⟨place, delay, asked, hc, hb, -⟩ := h.refreshes_iff.mp hr
    exact ⟨place, delay, asked, hc, hb⟩
  · rintro ⟨place, delay, asked, hc, hb⟩
    exact ⟨_, _, h.refreshes_iff.mpr ⟨place, delay, asked, hc, hb, rfl, rfl⟩⟩

/-- As many refreshes of a batch begin as it has. -/
theorem AtRest.length_begun (h : session.AtRest)
    (clocked : Clocked precedes .checkFirst (session.call .checkFirst batch) moves) :
    (begun .checkFirst (session.call .checkFirst batch) moves).length =
      batch.countP (·.2.isRefresh) :=
  (h.perm_begun clocked).length_eq.trans (length_refreshers batch session.calls.length)

/-- The calls of a batch that are answered at once are quiet if its calls are. -/
theorem AtRest.quiet_call (h : session.AtRest) (quiet : ∀ entry ∈ batch, entry.2.Quiet)
    (caller : Nat) (due : Instant) (query : Query)
    (hp : (session.call .checkFirst batch).calls[caller]? = some (.starting due (.query query))) :
    query.Quiet := by
  obtain ⟨place, delay, request, -, hb, he⟩ :=
    h.exists_of_starting hp (Phase.not_finished_starting _ _)
  cases he
  exact quiet _ (List.mem_of_getElem? hb)

/-- A refresh of a batch begins no later than those that were made for a later instant, or for
the same instant by a caller whom its own precedes. -/
theorem AtRest.sorted_begun (h : session.AtRest) (quiet : ∀ entry ∈ batch, entry.2.Quiet)
    (clocked : Clocked precedes .checkFirst (session.call .checkFirst batch) moves) :
    (begun .checkFirst (session.call .checkFirst batch) moves).Pairwise fun caller other =>
      ∀ due later interval another,
        (session.call .checkFirst batch).Refreshes caller due interval →
        (session.call .checkFirst batch).Refreshes other later another →
        Sooner precedes (due, caller) (later, other) :=
  clocked.sorted_begun (h.underway .checkFirst batch) (h.quiet_call quiet)

/-- If the call made first is preferred, refreshes that are made for one instant begin in the
order of the batch. -/
theorem AtRest.begun_together (h : session.AtRest) (quiet : ∀ entry ∈ batch, entry.2.Quiet)
    {delay : Nat} (together : ∀ entry ∈ batch, entry.2.isRefresh = true → entry.1 = delay)
    (clocked : Clocked (· ≤ ·) .checkFirst (session.call .checkFirst batch) moves) :
    begun .checkFirst (session.call .checkFirst batch) moves =
      refreshers batch session.calls.length := by
  have hperm := h.perm_begun clocked
  have hmade : ∀ caller ∈ begun .checkFirst (session.call .checkFirst batch) moves,
      ∃ interval, (session.call .checkFirst batch).Refreshes caller (session.now + delay)
        interval := by
    intro caller hm
    obtain ⟨place, begins, asked, hc, hb⟩ := mem_refreshers.mp (hperm.mem_iff.mp hm)
    have hd : begins = delay := together _ (List.mem_of_getElem? hb) rfl
    exact ⟨_, h.refreshes_iff.mpr ⟨place, begins, asked, hc, hb, by rw [hd], rfl⟩⟩
  have hsorted : (begun .checkFirst (session.call .checkFirst batch) moves).Pairwise (· ≤ ·) := by
    refine (h.sorted_begun quiet clocked).imp_of_mem fun hc ho hs => ?_
    obtain ⟨interval, hc⟩ := hmade _ hc
    obtain ⟨another, ho⟩ := hmade _ ho
    rcases hs _ _ _ _ hc ho with hl | ⟨-, hle⟩
    · exact absurd hl (Nat.lt_irrefl _)
    · exact hle
  exact hperm.eq_of_pairwise (fun _ _ _ _ => Nat.le_antisymm) hsorted
    ((sorted_refreshers batch session.calls.length).imp Nat.le_of_lt)

/-- If the call made first is preferred, the refresh that is made before all others begins
first. -/
theorem AtRest.head?_begun (h : session.AtRest) (quiet : ∀ entry ∈ batch, entry.2.Quiet)
    {place delay : Nat} {asked : Option Duration}
    (hb : batch[place]? = some (delay, .refresh asked))
    (earliest : ∀ (other : Nat) later more, batch[other]? = some (later, .refresh more) →
      Before (delay, place) (later, other))
    (clocked : Clocked (· ≤ ·) .checkFirst (session.call .checkFirst batch) moves) :
    (begun .checkFirst (session.call .checkFirst batch) moves).head? =
      some (session.calls.length + place) := by
  have hperm := h.perm_begun clocked
  have hm : session.calls.length + place ∈
      begun .checkFirst (session.call .checkFirst batch) moves :=
    hperm.mem_iff.mpr (mem_refreshers.mpr ⟨place, delay, asked, rfl, hb⟩)
  have hs := h.sorted_begun quiet clocked
  cases ho : begun .checkFirst (session.call .checkFirst batch) moves with
  | nil =>
    rw [ho] at hm
    cases hm
  | cons head rest =>
    rw [ho] at hm hs
    rw [List.head?_cons, Option.some_inj]
    rcases List.mem_cons.mp hm with he | hrest
    · exact he.symm
    · have hhead : head ∈ refreshers batch session.calls.length :=
        hperm.mem_iff.mp (ho ▸ List.mem_cons_self)
      obtain ⟨other, later, more, rfl, hother⟩ := mem_refreshers.mp hhead
      have hfirst := earliest other later more hother
      have hr : (session.call .checkFirst batch).Refreshes _ _ _ :=
        h.refreshes_iff.mpr ⟨other, later, more, rfl, hother, rfl, rfl⟩
      have hr' : (session.call .checkFirst batch).Refreshes _ _ _ :=
        h.refreshes_iff.mpr ⟨place, delay, asked, rfl, hb, rfl, rfl⟩
      have hbefore : Before (session.now + later, session.calls.length + other)
          (session.now + delay, session.calls.length + place) :=
        (List.pairwise_cons.mp hs).1 _ hrest _ _ _ _ hr hr'
      unfold Before at hfirst hbefore
      dsimp only at hfirst hbefore
      have hle : other ≤ place ∧ place ≤ other := by omega
      rw [Nat.le_antisymm hle.1 hle.2]

/-- In a clocked run the refreshes of a batch made in a session at rest are a rush, if no answer
is valid before and all other calls are quiet. -/
def AtRest.rush (h : session.AtRest)
    (clocked : Clocked precedes .checkFirst (session.call .checkFirst batch) moves)
    (quiet : ∀ entry ∈ batch, entry.2.Quiet) (due : session.mapper.refresh.Due session.now)
    {failures : List (DiscoveryError × Nat)} {resources : ResourceSet} {latency : Nat}
    (fails : ∀ index failure, failures[index]? = some failure →
      (session.source.afterCalls index).response = ⟨.error failure.1, failure.2⟩)
    (succeeds : (session.source.afterCalls failures.length).response = ⟨.ok resources, latency⟩)
    (inTime : ∀ caller due interval,
      (begun .checkFirst (session.call .checkFirst batch) moves)[failures.length]? =
        some caller →
      (session.call .checkFirst batch).Refreshes caller due interval →
      latency < interval.nanos ∧
        due + (failures.map Prod.snd).sum + interval.nanos ≤ Instant.latest ∧
        ∀ other later another, (session.call .checkFirst batch).Refreshes other later another →
          later < due + interval.nanos) : Rush where
  first := session.call .checkFirst batch
  precedes := precedes
  moves := moves
  clocked := clocked
  failures := failures
  resources := resources
  latency := latency
  underway := h.underway .checkFirst batch
  away := by
    rintro caller ⟨phase, hp, ha⟩
    obtain ⟨place, delay, request, -, -, rfl⟩ := h.exists_of_starting hp ha.not_finished
    exact ha
  quiet := h.quiet_call quiet
  due := by
    rw [call_eq]
    exact due
  fails := by
    rw [call_eq]
    exact fails
  succeeds := by
    rw [call_eq]
    exact succeeds
  inTime := inTime

/-- What a batch comes to whose refreshes are a rush. -/
theorem AtRest.served_rush (h : session.AtRest) {rush : Rush}
    (first : rush.first = session.call .checkFirst batch) :
    let served := session.served batch rush.moves
    (∀ (index place : Nat) failure, rush.order[index]? = some (session.calls.length + place) →
      rush.failures[index]? = some failure →
      ∃ time, served.answers[place]? = some (time, .failed failure.1)) ∧
    (rush.order.length ≤ rush.failures.length →
      served.session.source.calls = session.source.calls + rush.order.length ∧
      served.session.mapper.refresh = session.mapper.refresh ∧
      ((∀ entry ∈ batch, entry.2.isRefresh = true) →
        served.session.mapper = session.mapper)) ∧
    (rush.failures.length < rush.order.length →
      served.session.source.calls = session.source.calls + rush.failures.length + 1 ∧
      ∀ (index place : Nat), rush.failures.length ≤ index →
        rush.order[index]? = some (session.calls.length + place) →
        ∃ time, served.answers[place]? = some (time, .resources rush.resources)) := by
  intro served
  have clocked : Clocked rush.precedes .checkFirst (session.call .checkFirst batch) rush.moves :=
    first ▸ rush.clocked
  have hs : served.session = rush.first.run .checkFirst rush.moves := by
    rw [first]
    rfl
  have hsource : rush.first.source = session.source := by rw [first, call_eq]
  have hmapper : rush.first.mapper = session.mapper := by rw [first, call_eq]
  obtain ⟨hfailed, hfew, hmany⟩ := rush.outcome
  rw [← hs, hsource, hmapper] at hfew
  rw [← hs, hsource] at hmany
  rw [← hs] at hfailed
  refine ⟨?_, fun hle => ?_, fun hlt => ?_⟩
  · intro index place failure ho hf
    obtain ⟨time, hp⟩ := hfailed index _ failure ho hf
    exact ⟨_, h.answers_getElem? clocked hp⟩
  · obtain ⟨hcalls, hrefresh, hwhole⟩ := hfew hle
    refine ⟨hcalls, hrefresh, fun hall => hwhole fun caller due query hp => ?_⟩
    rw [first] at hp
    obtain ⟨place, delay, request, -, hb, he⟩ :=
      h.exists_of_starting hp (Phase.not_finished_starting _ _)
    cases he
    exact absurd (hall _ (List.mem_of_getElem? hb)) Bool.false_ne_true
  · obtain ⟨hcalls, hserved⟩ := hmany hlt
    refine ⟨hcalls, fun index place hi ho => ?_⟩
    obtain ⟨time, hp⟩ := hserved index _ hi ho
    exact ⟨_, h.answers_getElem? clocked hp⟩

end

end Session

end ModelRegistry
