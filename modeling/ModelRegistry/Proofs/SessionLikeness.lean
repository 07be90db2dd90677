import ModelRegistry.Proofs.MapperLikeness
import ModelRegistry.Proofs.SessionTurns
import ModelRegistry.Schedule

/-!
# Sessions that look alike

Two sessions over mappers that look alike stay alike whatever is done in both: the same calls
can go on, each does the same in its turn, and it is answered alike at the same instant.
Answers that are alike are the same, unless they tell the configuration, or a kind that the
bootstrap layer gives a type: then they may differ in what is not looked at of the
configuration, and as far as two kinds may that the layers give one type. Which mappers are
alike, and in which of these ways, is said elsewhere.
-/

namespace ModelRegistry

/-- Two answers are the same, or configurations that look the same, or kinds of the bootstrap
layers that compare in a certain way. -/
inductive Answer.Alike (view : Config → Config)
    (told : GroupVersionKind → GroupVersionKind → Prop) : Answer → Answer → Prop
  /-- The same is told. -/
  | same (answer : Answer) : Alike view told answer answer
  /-- Configurations are told that look the same. -/
  | config {one other : Config} (seen : view one = view other) :
      Alike view told (.config one) (.config other)
  /-- Kinds are told that compare. -/
  | kind {one other : GroupVersionKind} (compare : told one other) :
      Alike view told (.bootstrapKind (some one)) (.bootstrapKind (some other))

/-- Two calls have come equally far, and if they are over they were answered alike at the same
instant. -/
inductive Phase.Alike (view : Config → Config)
    (told : GroupVersionKind → GroupVersionKind → Prop) : Phase → Phase → Prop
  /-- The calls have come equally far. -/
  | same (phase : Phase) : Alike view told phase phase
  /-- The calls were answered alike. -/
  | finished (time : Instant) {one other : Answer} (alike : one.Alike view told other) :
      Alike view told (.finished time one) (.finished time other)

section

variable {view : Config → Config} {told : GroupVersionKind → GroupVersionKind → Prop}

/-- No kind is told, or kinds that compare. -/
theorem Answer.Alike.of_rel {one other : Option GroupVersionKind} (h : Option.Rel told one other) :
    (Answer.bootstrapKind one).Alike view told (.bootstrapKind other) := by
  cases h with
  | none => exact .same _
  | some compare => exact .kind compare

/-- The order of two answers does not matter. -/
theorem Answer.Alike.symm {one other : Answer} (h : one.Alike view told other) :
    other.Alike view (flip told) one := by
  cases h with
  | same => exact .same _
  | config seen => exact .config seen.symm
  | kind compare => exact .kind compare

/-- An answer is alike to itself only, if it does not tell the configuration, or all of it is
looked at, and if it tells no kind of the bootstrap layer, or kinds compare to themselves
only. -/
theorem Answer.Alike.eq {one other : Answer} (h : one.Alike view told other)
    (configs : view.Injective ∨ ∀ config, one ≠ .config config)
    (kinds : (∀ kind found, told kind found → kind = found) ∨ ∀ kind, one ≠ .bootstrapKind kind) :
    other = one := by
  cases h with
  | same => rfl
  | config seen =>
    rcases configs with injective | notConfig
    · rw [injective seen]
    · exact absurd rfl (notConfig _)
  | kind compare =>
    rcases kinds with exact | notKind
    · rw [exact _ _ compare]
    · exact absurd rfl (notKind _)

/-- The order of two calls does not matter. -/
theorem Phase.Alike.symm {one other : Phase} (h : one.Alike view told other) :
    other.Alike view (flip told) one := by
  cases h with
  | same => exact .same _
  | finished time alike => exact .finished time alike.symm

/-- A call that is not over has come as far as one that is alike. -/
theorem Phase.Alike.eq {one other : Phase} (h : one.Alike view told other)
    (unfinished : ∀ time answer, one ≠ .finished time answer) : other = one := by
  cases h with
  | same => rfl
  | finished time alike => exact absurd rfl (unfinished _ _)

end

/-- Lists compare place by place after one item was replaced in each. -/
theorem forall₂_set {α β : Type} {R : α → β → Prop} {first : List α} {second : List β}
    (h : List.Forall₂ R first second) {one : α} {other : β} (new : R one other) (place : Nat) :
    List.Forall₂ R (first.set place one) (second.set place other) := by
  induction h generalizing place with
  | nil => exact .nil
  | cons head rest ih =>
    cases place with
    | zero => exact .cons new rest
    | succ place => exact .cons head (ih place)

/-- An item of one list compares to the item at the same place of the other. -/
theorem exists_of_forall₂ {α β : Type} {R : α → β → Prop} {first : List α} {second : List β}
    (h : List.Forall₂ R first second) {place : Nat} {one : α} (hp : first[place]? = some one) :
    ∃ other, second[place]? = some other ∧ R one other := by
  induction h generalizing place with
  | nil => cases hp
  | cons head rest ih =>
    cases place with
    | zero =>
      cases hp
      exact ⟨_, rfl, head⟩
    | succ place => exact ih hp

/-- Two sessions differ only in mappers that are alike, and in answers that are alike. -/
structure Session.Alike (view : Config → Config)
    (told : GroupVersionKind → GroupVersionKind → Prop) (first second : Session) : Prop where
  /-- It is the same time. -/
  now : first.now = second.now
  /-- The mappers are alike. -/
  mapper : first.mapper.Alike view told second.mapper
  /-- The same callers are at the gate. -/
  gate : first.gate = second.gate
  /-- The discovery sources are the same. -/
  source : first.source = second.source
  /-- The calls are alike. -/
  calls : List.Forall₂ (Phase.Alike view told) first.calls second.calls
  /-- The same has happened. -/
  log : first.log = second.log

/-- Two batches of calls came to the same: they took as long, were answered alike, and the same
happened. -/
structure Session.Batch.Alike (view : Config → Config)
    (told : GroupVersionKind → GroupVersionKind → Prop) (first second : Session.Batch) : Prop where
  /-- Each call of the one batch took as long as that of the other, and was answered alike. -/
  answers : List.Forall₂ (fun one other => one.1 = other.1 ∧ one.2.Alike view told other.2)
    first.answers second.answers
  /-- The events are the same. -/
  events : first.events = second.events

namespace Session.Alike

variable {view : Config → Config} {told : GroupVersionKind → GroupVersionKind → Prop}
  {first second : Session}

/-- Sessions over mappers that are alike are alike before the first call. -/
theorem start {one other : Mapper} (h : one.Alike view told other) (now : Instant)
    (source : Source) :
    (Session.start now one source).Alike view told (.start now other source) :=
  ⟨rfl, h, rfl, rfl, .nil, rfl⟩

/-- The order of two sessions does not matter. -/
theorem symm (h : first.Alike view told second) : second.Alike view (flip told) first :=
  ⟨h.now.symm, h.mapper.symm, h.gate.symm, h.source.symm,
    (h.calls.imp fun _ _ alike => alike.symm).flip, h.log.symm⟩

/-- A call in a certain phase waits equally long in both. -/
theorem due?_eq (h : first.Alike view told second) (caller : Nat) (phase : Phase) :
    first.due? caller phase = second.due? caller phase := by
  cases phase with
  | queued interval => rw [due?, due?, h.gate]
  | _ => rfl

/-- The same calls can go on, in the same phases. -/
theorem ready?_of_ready? (h : first.Alike view told second) {caller : Nat} {phase : Phase}
    (hr : first.ready? caller = some phase) : second.ready? caller = some phase := by
  obtain ⟨hp, due, hd, hn⟩ := ready?_eq_some_iff.mp hr
  have unfinished : ∀ time answer, phase ≠ .finished time answer := by
    rintro time answer rfl
    cases hd
  obtain ⟨other, ho, alike⟩ := exists_of_forall₂ h.calls hp
  rw [alike.eq unfinished] at ho
  rw [ready?_eq_some_iff, ← h.due?_eq, ← h.now]
  exact ⟨ho, due, hd, hn⟩

/-- The same stored answer is served. -/
theorem cached?_eq (h : first.Alike view told second) :
    first.mapper.refresh.cached? first.now = second.mapper.refresh.cached? second.now := by
  rw [h.mapper.refresh, h.now]

/-- Sessions stay alike when a call goes to phases that are alike. -/
theorem setPhase (h : first.Alike view told second) (caller : Nat) {phase other : Phase}
    (alike : phase.Alike view told other) :
    (first.setPhase caller phase).Alike view told (second.setPhase caller other) :=
  ⟨h.now, h.mapper, h.gate, h.source, forall₂_set h.calls alike caller, h.log⟩

/-- Sessions stay alike when a call is answered alike. -/
theorem finish (h : first.Alike view told second) (caller : Nat) {answer other : Answer}
    (alike : answer.Alike view told other) :
    (first.finish caller answer).Alike view told (second.finish caller other) := by
  refine h.setPhase caller ?_
  rw [h.now]
  exact .finished second.now alike

/-- Sessions stay alike when the holder leaves the gate. -/
theorem leaveGate (h : first.Alike view told second) :
    first.leaveGate.Alike view told second.leaveGate :=
  ⟨h.now, h.mapper, congrArg Gate.leave h.gate, h.source, h.calls, h.log⟩

/-- Sessions stay alike when the same is reported. -/
theorem report (h : first.Alike view told second) (events : List Event) :
    (first.report events).Alike view told (second.report events) :=
  ⟨h.now, h.mapper, h.gate, h.source, h.calls, congrArg (· ++ events) h.log⟩

/-- A call answered at once leaves sessions alike. -/
theorem ask (h : first.Alike view told second) (query : Query) :
    (first.ask query).1.Alike view told (second.ask query).1 := by
  obtain ⟨now, mapper, gate, source, calls, log⟩ := h
  cases query with
  | register registration =>
    exact ⟨now, ⟨mapper.config, mapper.interval, mapper.registry.register registration,
      mapper.refresh⟩, gate, source, calls, log⟩
  | reset =>
    have hm := mapper.registry.reset
    refine ⟨now, ⟨mapper.config, mapper.interval, hm, rfl⟩, gate, source, calls, ?_⟩
    rw [Session.ask, Session.ask, Session.report, Session.report, mapper.resetEvents_eq, log]
  | script responses =>
    exact ⟨now, mapper, gate, congrArg (Source.script · responses) source, calls, log⟩
  | wait nanos => exact ⟨congrArg (· + nanos) now, mapper, gate, source, calls, log⟩
  | _ => exact ⟨now, mapper, gate, source, calls, log⟩

/-- A call answered at once is answered alike. -/
theorem answer (h : first.Alike view told second) (query : Query) :
    (first.ask query).2.Alike view told (second.ask query).2 := by
  have hr := h.mapper.registry
  cases query with
  | config => exact .config h.mapper.config
  | bootstrapKindOf model =>
    rw [Session.ask, Session.ask]
    exact .of_rel (hr.bootstrap.kinds model)
  | typeOfKind kind => rw [Session.ask, Session.ask, hr.typeOfKind_eq]; exact .same _
  | typeOfResource resource => rw [Session.ask, Session.ask, hr.typeOfResource_eq]; exact .same _
  | kindOf model => rw [Session.ask, Session.ask, hr.kindOf_eq]; exact .same _
  | resourceOf model => rw [Session.ask, Session.ask, hr.resourceOf_eq]; exact .same _
  | isNamespaced model => rw [Session.ask, Session.ask, hr.isNamespaced_eq]; exact .same _
  | snapshot models =>
    simp only [Session.ask, hr.kindOf_eq, hr.resourceOf_eq, hr.isNamespaced_eq]
    exact .same _
  | hasEverRefreshed =>
    rw [Session.ask, Session.ask, Mapper.hasEverRefreshed, Mapper.hasEverRefreshed,
      h.mapper.refresh]
    exact .same _
  | bootstrapSize => rw [Session.ask, Session.ask, hr.bootstrap.size_eq]; exact .same _
  | calls => rw [Session.ask, Session.ask, h.source]; exact .same _
  | _ => exact .same _

/-- A call answered at once is answered the same, if it does not ask for the configuration, or
all of it is looked at, and if it asks for no kind of the bootstrap layer, or kinds compare to
themselves only. -/
theorem answer_eq (h : first.Alike view told second) {query : Query}
    (configs : view.Injective ∨ query ≠ .config)
    (kinds : (∀ kind found, told kind found → kind = found) ∨
      ∀ model, query ≠ .bootstrapKindOf model) :
    (first.ask query).2 = (second.ask query).2 := by
  refine ((h.answer query).eq (configs.imp_right ?_) (kinds.imp_right ?_)).symm
  · rintro notConfig config he
    cases query with
    | config => exact notConfig rfl
    | _ => cases he
  · rintro notKind kind he
    cases query with
    | bootstrapKindOf model => exact notKind model rfl
    | _ => cases he

/-- A refresh that holds the gate leaves sessions alike. -/
theorem enter (h : first.Alike view told second) (caller : Nat) (interval : Duration) :
    (first.enter caller interval).Alike view told (second.enter caller interval) := by
  unfold Session.enter
  rw [h.cached?_eq]
  cases second.mapper.refresh.cached? second.now with
  | some resources => exact ((h.report _).leaveGate).finish caller (.same _)
  | none =>
    have ha : { first with source := first.source.afterCall : Session }.Alike view told
        { second with source := second.source.afterCall } :=
      ⟨h.now, h.mapper, h.gate, congrArg Source.afterCall h.source, h.calls, h.log⟩
    refine ha.setPhase caller ?_
    rw [h.now, h.source]
    exact .same _

/-- A refresh that begins leaves sessions alike. -/
theorem beginRefresh (h : first.Alike view told second) (admission : Admission) (caller : Nat)
    (interval : Duration) :
    (first.beginRefresh admission caller interval).Alike view told
      (second.beginRefresh admission caller interval) := by
  have ha : (first.arrive caller interval).Alike view told (second.arrive caller interval) := by
    have hg : { first with gate := first.gate.arrive caller : Session }.Alike view told
        { second with gate := second.gate.arrive caller } :=
      ⟨h.now, h.mapper, congrArg (Gate.arrive · caller) h.gate, h.source, h.calls, h.log⟩
    unfold arrive
    dsimp only
    rw [h.gate] at hg ⊢
    split
    · exact hg.enter caller interval
    · exact hg.setPhase caller (.same _)
  unfold Session.beginRefresh
  rw [h.cached?_eq]
  split
  · exact (h.report _).finish caller (.same _)
  · exact ha

/-- A refresh that takes up its response leaves sessions alike. -/
theorem settle (h : first.Alike view told second) (caller : Nat) (turn : Instant)
    (interval : Duration) (outcome : DiscoveryOutcome) :
    (first.settle caller turn interval outcome).Alike view told
      (second.settle caller turn interval outcome) := by
  cases outcome with
  | error error => exact ((h.report _).leaveGate).finish caller (.same _)
  | ok resources =>
    have hc : { first with mapper := first.mapper.commit turn interval resources : Session }.Alike
        view told { second with mapper := second.mapper.commit turn interval resources } :=
      ⟨h.now, h.mapper.commit turn interval resources, h.gate, h.source, h.calls, h.log⟩
    unfold Session.settle
    dsimp only
    rw [h.mapper.commitEvents_eq]
    exact ((hc.report _).leaveGate).finish caller (.same _)

/-- A turn of a caller leaves sessions alike. -/
theorem turn (h : first.Alike view told second) (admission : Admission) (caller : Nat) :
    (first.turn admission caller).Alike view told (second.turn admission caller) := by
  have hr : first.ready? caller = second.ready? caller :=
    Option.ext fun phase => ⟨h.ready?_of_ready?, h.symm.ready?_of_ready?⟩
  refine turn_rel hr h fun phase _ => ?_
  cases phase with
  | starting due request =>
    cases request with
    | query query => exact (h.ask query).finish caller (h.answer query)
    | refresh asked =>
      rw [goOn, goOn, h.mapper.interval]
      exact h.beginRefresh admission caller _
  | queued interval => exact h.enter caller interval
  | fetching turn interval outcome due => exact h.settle caller turn interval outcome
  | finished time answer => exact h

/-- Every move leaves sessions alike. -/
theorem move (h : first.Alike view told second) (admission : Admission) (move : Move) :
    (first.move admission move).Alike view told (second.move admission move) := by
  cases move with
  | call delay request =>
    refine ⟨h.now, h.mapper, h.gate, h.source, ?_, h.log⟩
    rw [Session.move, Session.move, h.now]
    exact List.rel_append h.calls (.cons (.same _) .nil)
  | wait nanos => exact ⟨congrArg (· + nanos) h.now, h.mapper, h.gate, h.source, h.calls, h.log⟩
  | turn caller => exact h.turn admission caller

/-- Every run leaves sessions alike. -/
theorem run (h : first.Alike view told second) (admission : Admission) (moves : List Move) :
    (first.run admission moves).Alike view told (second.run admission moves) := by
  induction moves generalizing first second with
  | nil => exact h
  | cons head rest ih => exact ih (h.move admission head)

/-- The next turn on the virtual clock is the same. -/
theorem next?_eq (h : first.Alike view told second) : first.next? = second.next? := by
  have hfrom : ∀ place phases others, List.Forall₂ (Phase.Alike view told) phases others →
      first.nextFrom phases place = second.nextFrom others place := by
    intro place phases others alike
    induction alike generalizing place with
    | nil => rfl
    | @cons phase other rest more head tail ih =>
      have hd : first.due? place phase = second.due? place other := by
        cases head with
        | same phase => exact h.due?_eq place phase
        | finished time alike => rfl
      rw [nextFrom, nextFrom, hd, ih, h.now]
  exact hfrom 0 _ _ h.calls

/-- Any number of turns on the virtual clock leave sessions alike. -/
theorem drive (h : first.Alike view told second) (admission : Admission) (turns : Nat) :
    (first.drive admission turns).Alike view told (second.drive admission turns) := by
  induction turns generalizing first second with
  | zero => exact h
  | succ turns ih =>
    rw [Session.drive, Session.drive, h.next?_eq]
    split
    · exact h
    · rename_i time caller _
      have hn : { first with now := time : Session }.Alike view told { second with now := time } :=
        ⟨rfl, h.mapper, h.gate, h.source, h.calls, h.log⟩
      exact ih (hn.turn admission caller)

/-- A call that was answered in one session was answered alike in the other. -/
theorem exists_of_finished (h : first.Alike view told second) {caller : Nat} {time : Instant}
    {answer : Answer} (hp : first.calls[caller]? = some (.finished time answer)) :
    ∃ other, second.calls[caller]? = some (.finished time other) ∧
      answer.Alike view told other := by
  obtain ⟨phase, ho, alike⟩ := exists_of_forall₂ h.calls hp
  cases alike with
  | same phase => exact ⟨answer, ho, .same answer⟩
  | finished time alike => exact ⟨_, ho, alike⟩

/-- A call was answered the same in both sessions, if it was not told the configuration, or all
of it is looked at, and if it was told no kind of the bootstrap layer, or kinds compare to
themselves only. -/
theorem finished_iff (h : first.Alike view told second) {caller : Nat} {time : Instant}
    {answer : Answer} (configs : view.Injective ∨ ∀ config, answer ≠ .config config)
    (kinds : (∀ kind found, told kind found → kind = found) ∨
      ∀ kind, answer ≠ .bootstrapKind kind) :
    first.calls[caller]? = some (.finished time answer) ↔
      second.calls[caller]? = some (.finished time answer) := by
  constructor
  · intro hp
    obtain ⟨other, ho, alike⟩ := h.exists_of_finished hp
    rwa [alike.eq configs kinds] at ho
  · intro hp
    obtain ⟨other, ho, alike⟩ := h.symm.exists_of_finished hp
    have exchanged := kinds.imp_left fun exact kind found compare =>
      (exact found kind compare).symm
    rwa [alike.eq configs exchanged] at ho

/-- The answers to the calls from a place on are alike, and take as long. -/
theorem answersSince (h : first.Alike view told second) (place : Nat) (time : Instant) :
    List.Forall₂ (fun one other => one.1 = other.1 ∧ one.2.Alike view told other.2)
      (first.answersSince place time) (second.answersSince place time) := by
  refine List.rel_filterMap (fun phase other alike => ?_) (List.forall₂_drop place h.calls)
  cases alike with
  | same =>
    cases phase with
    | finished instant answer => exact .some ⟨rfl, .same answer⟩
    | _ => exact .none
  | finished instant alike => exact .some ⟨rfl, alike⟩

/-- A batch of calls that is served leaves sessions alike. -/
theorem session_serve (h : first.Alike view told second) (batch : List (Nat × Request)) :
    (first.serve batch).session.Alike view told (second.serve batch).session :=
  (h.run .checkFirst _).drive .checkFirst _

/-- A batch of calls comes to the same in both sessions. -/
theorem serve (h : first.Alike view told second) (batch : List (Nat × Request)) :
    (first.serve batch).Alike view told (second.serve batch) where
  answers := by
    have ha := (h.session_serve batch).answersSince first.calls.length first.now
    rw [Session.serve, Session.serve]
    dsimp only
    rw [← h.calls.length_eq, ← h.now]
    exact ha
  events := by
    rw [Session.serve, Session.serve]
    dsimp only
    rw [← h.log]
    exact congrArg (List.drop first.log.length) (h.session_serve batch).log

end Session.Alike

end ModelRegistry
