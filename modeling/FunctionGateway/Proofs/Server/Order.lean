import FunctionGateway.Proofs.Server.Stages

/-!
# The order of a server's life

A run of a server is any sequence of possible events.  What has happened in a run tells what is
published at its end, and whether there was a reason to leave; with the stages of the loop this
gives the promises about the order of a server's life.
-/

namespace FunctionGateway

/-! ## What an event does -/

namespace LifeEvent

/-- What an event publishes. -/
def publishes : LifeEvent → List ServerState
  | create => [.idle]
  | bindRoutes => [.starting]
  | publishServing => [.serving]
  | publishDraining => [.draining]
  | publishStopped => [.stopped]
  | _ => []

/-- Whether an event gives the loop a reason to leave. -/
def asks : LifeEvent → Bool
  | requestShutdown => true
  | dropHandle => true
  | _ => false

/-- Whether an event is a failure to bind the port. -/
def fails : LifeEvent → Bool
  | bindPort free => !free
  | loseAddress => true
  | _ => false

end LifeEvent

namespace Lifecycle

variable {life next : Lifecycle} {event : LifeEvent}

theorem step_published (taken : life.step event = some next) :
    next.published = life.published ++ event.publishes := by
  cases event <;>
    grind [Lifecycle.step, publish, Lifecycle.beginTurn, accept?, LifeEvent.publishes]

/-- While the port is bound and serving is not published, nobody has a handle yet. -/
theorem Sound.ownerless (sound : life.Sound) (bound : life.stage = .bound) :
    life.handle = .none :=
  sound.owned.mpr (by rw [bound]; rfl)

theorem step_hasAsked (sound : life.Sound) (taken : life.step event = some next) :
    next.handle.hasAsked = (life.handle.hasAsked || event.asks) := by
  cases event with
  | publishServing =>
      obtain ⟨bound, ⟨⟩⟩ := Option.ite_none_right_eq_some.mp taken
      rw [sound.ownerless bound]
      rfl
  | _ =>
      grind [Lifecycle.step, publish, Lifecycle.beginTurn, accept?, LifeEvent.asks,
        HandleUse.hasAsked]

theorem step_refused (taken : life.step event = some next) :
    next.stage = .refused ↔ life.stage = .refused ∨ event.fails = true := by
  cases event <;> grind [Lifecycle.step, publish, Lifecycle.beginTurn, accept?, LifeEvent.fails]

/-- The listener opens, and the loop begins, only on a port that was bound. -/
theorem step_bound (taken : life.step event = some next)
    (reached : next.stage.isOpen = true ∨ next.stage.isBegun = true) :
    life.stage.isOpen = true ∨ life.stage.isBegun = true ∨ event = .bindPort true := by
  cases event <;>
    grind [Lifecycle.step, publish, Lifecycle.beginTurn, accept?, LoopStage.isOpen,
      LoopStage.isBegun]

/-- A loop past its last turn has no further turn. -/
theorem step_hasLeft (left : life.stage.hasLeft = true) (taken : life.step event = some next) :
    next.stage.hasLeft = true ∧ event ≠ .accept := by
  cases event <;>
    grind [Lifecycle.step, publish, Lifecycle.beginTurn, accept?, LoopStage.hasLeft]

/-- A shutdown call returns once, with the result of the drain. -/
theorem step_returned (sound : life.Sound) (taken : life.step event = some next)
    (returned : (∃ result, life.handle = .returned result) ∨ event = .shutdownReturns) :
    ∃ result, next.handle = .returned result := by
  cases event with
  | publishServing =>
      obtain ⟨bound, ⟨⟩⟩ := Option.ite_none_right_eq_some.mp taken
      have ownerless := sound.ownerless bound
      rcases returned with ⟨result, same⟩ | same
      · exact nomatch ownerless.symm.trans same
      · exact nomatch same
  | _ => grind [Lifecycle.step, publish, Lifecycle.beginTurn, accept?]

/-! ## What a run has recorded -/

/-- The past of a run agrees with the moment it has come to. -/
structure Recorded (past : List LifeEvent) (life : Lifecycle) : Prop where
  sound : life.Sound
  told : life.published = past.flatMap LifeEvent.publishes
  asked : life.handle.hasAsked = past.any LifeEvent.asks
  refused : life.stage = .refused ↔ past.any LifeEvent.fails = true
  bound : life.stage.isOpen = true ∨ life.stage.isBegun = true → LifeEvent.bindPort true ∈ past
  returned : LifeEvent.shutdownReturns ∈ past → ∃ result, life.handle = .returned result

theorem Recorded.start : Recorded [] Lifecycle.new where
  sound := Sound.start
  told := rfl
  asked := rfl
  refused := iff_of_false (fun same => nomatch same) (fun failed => nomatch failed)
  bound := fun reached => by rcases reached with opened | begun <;> contradiction
  returned := fun member => nomatch member

theorem Recorded.step {past : List LifeEvent} (recorded : Recorded past life)
    (taken : life.step event = some next) : Recorded (past ++ [event]) next where
  sound := recorded.sound.step taken
  told := by
    rw [step_published taken, recorded.told]
    simp
  asked := by
    rw [step_hasAsked recorded.sound taken, recorded.asked]
    simp
  refused := by
    rw [step_refused taken, recorded.refused]
    simp
  bound := by
    intro reached
    rw [List.mem_append, List.mem_singleton]
    rcases step_bound taken reached with opened | begun | bindsNow
    · exact Or.inl (recorded.bound (Or.inl opened))
    · exact Or.inl (recorded.bound (Or.inr begun))
    · exact Or.inr bindsNow.symm
  returned := by
    intro member
    rw [List.mem_append, List.mem_singleton] at member
    refine step_returned recorded.sound taken ?_
    rcases member with earlier | now
    · exact Or.inl (recorded.returned earlier)
    · exact Or.inr now.symm

theorem run_cons (life : Lifecycle) (event : LifeEvent) (events : List LifeEvent) :
    life.run (event :: events) = (life.step event).bind (·.run events) :=
  rfl

theorem run_append (life : Lifecycle) (earlier later : List LifeEvent) :
    life.run (earlier ++ later) = (life.run earlier).bind (·.run later) :=
  List.foldlM_append

theorem Recorded.run {past events : List LifeEvent} (recorded : Recorded past life)
    (ran : life.run events = some next) : Recorded (past ++ events) next := by
  induction events generalizing past life with
  | nil =>
      cases ran
      rw [List.append_nil]
      exact recorded
  | cons event events inductionHypothesis =>
      rw [run_cons] at ran
      obtain ⟨between, taken, ran⟩ := Option.bind_eq_some_iff.mp ran
      rw [List.append_cons]
      exact inductionHypothesis (recorded.step taken) ran

theorem recorded_of_run {events : List LifeEvent} (ran : Lifecycle.new.run events = some life) :
    Recorded events life :=
  Recorded.start.run ran

/-- After its last turn a loop accepts nothing, however long the run goes on. -/
theorem run_hasLeft {events : List LifeEvent} (left : life.stage.hasLeft = true)
    (ran : life.run events = some next) : LifeEvent.accept ∉ events := by
  induction events generalizing life with
  | nil => exact List.not_mem_nil
  | cons event events inductionHypothesis =>
      rw [run_cons] at ran
      obtain ⟨between, taken, ran⟩ := Option.bind_eq_some_iff.mp ran
      obtain ⟨stillLeft, other⟩ := step_hasLeft left taken
      rw [List.mem_cons, not_or]
      exact ⟨other.symm, inductionHypothesis stillLeft ran⟩

/-! ## The promises -/

theorem Sound.published_prefix (sound : life.Sound) :
    life.published <+: [.idle, .starting, .serving, .draining, .stopped] := by
  rcases sound.shows with told | ⟨_, nothing | told⟩
  · rw [told]
    cases life.stage <;> simp [LoopStage.shown]
  · rw [nothing]
    exact List.nil_prefix
  · rw [told]
    simp

/-- Once draining is visible, the loop has left and the listener is closed. -/
theorem Sound.closed_of_drain (sound : life.Sound)
    (visible : ServerState.draining ∈ life.published ∨ ServerState.stopped ∈ life.published) :
    life.stage.hasLeft = true ∧ life.listening = false := by
  rw [sound.listens]
  rcases sound.shows with told | ⟨_, nothing | told⟩
  · rw [told] at visible
    cases stage : life.stage <;>
      simp [stage, LoopStage.shown, LoopStage.hasLeft, LoopStage.isOpen] at visible ⊢
  · simp [nothing] at visible
  · simp [told] at visible

/-- Serving is published no sooner than the loop begins. -/
theorem Sound.begun_of_serving (sound : life.Sound)
    (visible : ServerState.serving ∈ life.published) : life.stage.isBegun = true := by
  rcases sound.shows with told | ⟨_, nothing | told⟩
  · rw [told] at visible
    cases stage : life.stage <;> simp [stage, LoopStage.shown, LoopStage.isBegun] at visible ⊢
  · simp [nothing] at visible
  · simp [told] at visible

/-- What a server promises about the order of its life, at the end of any run. -/
structure Orderly (events : List LifeEvent) (life : Lifecycle) : Prop where
  /-- The published states are the first of the five, each once. -/
  ordered : life.published <+: [.idle, .starting, .serving, .draining, .stopped]
  /-- A watcher never sees a state go back: what was published stays, in its place. -/
  grows : ∀ earlier later, events = earlier ++ later →
    ∃ before, Lifecycle.new.run earlier = some before ∧ before.published <+: life.published
  bound : ServerState.serving ∈ life.published → LifeEvent.bindPort true ∈ events
  /-- A port that cannot be bound leaves the server starting. -/
  refused : LifeEvent.bindPort false ∈ events ∨ LifeEvent.loseAddress ∈ events →
    life.published = [.idle, .starting]
  /-- A connection is accepted only while the server is serving. -/
  accepts : ∀ earlier later, events = earlier ++ .accept :: later →
    ∃ before, Lifecycle.new.run earlier = some before ∧ before.state? = some .serving
  /-- Nothing is accepted in or after a turn that begins with a reason to leave. -/
  leaves : ∀ earlier later, events = earlier ++ .beginTurn :: later →
    LifeEvent.requestShutdown ∈ earlier ∨ LifeEvent.dropHandle ∈ earlier →
    LifeEvent.accept ∉ later
  closed : ServerState.draining ∈ life.published ∨ ServerState.stopped ∈ life.published →
    life.listening = false
  asked : ServerState.draining ∈ life.published →
    LifeEvent.requestShutdown ∈ events ∨ LifeEvent.dropHandle ∈ events
  /-- A shutdown call returns, with any result, only once the end is published. -/
  returned : LifeEvent.shutdownReturns ∈ events → ServerState.stopped ∈ life.published

theorem Recorded.asked_iff {past : List LifeEvent} (recorded : Recorded past life) :
    life.handle.hasAsked = true ↔
      LifeEvent.requestShutdown ∈ past ∨ LifeEvent.dropHandle ∈ past := by
  rw [recorded.asked, List.any_eq_true]
  constructor
  · rintro ⟨event, member, asks⟩
    cases event with
    | requestShutdown => exact Or.inl member
    | dropHandle => exact Or.inr member
    | _ => exact nomatch asks
  · rintro (member | member)
    · exact ⟨_, member, rfl⟩
    · exact ⟨_, member, rfl⟩

theorem Recorded.refused_of_failed {past : List LifeEvent} (recorded : Recorded past life)
    (failed : LifeEvent.bindPort false ∈ past ∨ LifeEvent.loseAddress ∈ past) :
    life.stage = .refused := by
  rw [recorded.refused, List.any_eq_true]
  rcases failed with member | member
  · exact ⟨_, member, rfl⟩
  · exact ⟨_, member, rfl⟩

/-- A turn that begins with a reason to leave is the last one. -/
theorem hasLeft_of_beginTurn (sound : life.Sound) (asked : life.handle.hasAsked = true)
    (taken : life.step .beginTurn = some next) : next.stage.hasLeft = true := by
  obtain ⟨waiting, ⟨⟩⟩ := Option.ite_none_right_eq_some.mp taken
  have triggered := (isTriggered_iff sound (by simp [waiting])).mpr asked
  rw [Lifecycle.beginTurn, if_pos triggered]
  rfl

/-- Any run of a server keeps every promise about the order of its life. -/
theorem run_orderly {events : List LifeEvent} (ran : Lifecycle.new.run events = some life) :
    Orderly events life := by
  have recorded := recorded_of_run ran
  have sound := recorded.sound
  -- Every moment of the run is the end of a shorter run.
  have moments : ∀ earlier later, events = earlier ++ later →
      ∃ before, Lifecycle.new.run earlier = some before ∧ before.run later = some life := by
    intro earlier later split
    rw [split, run_append] at ran
    exact Option.bind_eq_some_iff.mp ran
  have begins : ∀ earlier event later, events = earlier ++ event :: later →
      ∃ before after, Lifecycle.new.run earlier = some before ∧
        before.step event = some after ∧ after.run later = some life := by
    intro earlier event later split
    obtain ⟨before, reached, rest⟩ := moments _ _ split
    obtain ⟨after, taken, rest⟩ := Option.bind_eq_some_iff.mp rest
    exact ⟨before, after, reached, taken, rest⟩
  constructor
  case ordered => exact sound.published_prefix
  case grows =>
    intro earlier later split
    obtain ⟨before, reached, _⟩ := moments earlier later split
    refine ⟨before, reached, ?_⟩
    rw [(recorded_of_run reached).told, recorded.told, split, List.flatMap_append]
    exact List.prefix_append _ _
  case bound =>
    intro visible
    exact recorded.bound (Or.inr (sound.begun_of_serving visible))
  case refused =>
    intro failed
    exact sound.published_eq (recorded.refused_of_failed failed) (by decide)
  case accepts =>
    intro earlier later split
    obtain ⟨before, after, reached, taken, _⟩ := begins _ _ _ split
    obtain ⟨accepting, _⟩ := Option.ite_none_right_eq_some.mp taken
    have told := (recorded_of_run reached).sound.published_eq accepting (by decide)
    refine ⟨before, reached, ?_⟩
    rw [state?, told]
    rfl
  case leaves =>
    intro earlier later split asked
    obtain ⟨before, after, reached, taken, rest⟩ := begins _ _ _ split
    have sooner := recorded_of_run reached
    exact run_hasLeft (hasLeft_of_beginTurn sooner.sound (sooner.asked_iff.mpr asked) taken) rest
  case closed => exact fun visible => (sound.closed_of_drain visible).2
  case asked =>
    intro visible
    exact recorded.asked_iff.mp (sound.asked (sound.closed_of_drain (Or.inl visible)).1)
  case returned =>
    intro member
    obtain ⟨result, returned⟩ := recorded.returned member
    rw [sound.published_eq (sound.returned result returned) (by simp)]
    simp [LoopStage.shown]

/-- Two clients connect; the second one is still queued when the owner asks for a shutdown in
the turn that accepts the first one, and is never accepted; the drain times out. -/
theorem run_orderly_timedOut :
    let events : List LifeEvent :=
      [.create, .bindRoutes, .bindPort true, .publishServing, .connect, .connect, .beginTurn,
        .requestShutdown, .accept, .beginTurn, .closeListener, .publishDraining,
        .drainEnds .timedOut, .publishStopped, .shutdownReturns]
    ∃ life, Lifecycle.new.run events = some life ∧ Orderly events life :=
  ⟨_, rfl, run_orderly rfl⟩

end Lifecycle

end FunctionGateway
