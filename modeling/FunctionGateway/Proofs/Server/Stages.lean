import FunctionGateway.Server.Lifecycle

/-!
# The stages of a server

The accept loop and the owner of a server move independently of each other.  Whatever the order
of their steps, the stage of the loop tells what has been published, whether the listener
is open, and what the owner may have done; and from this come the promises on the
order in which a server lives.
-/

namespace FunctionGateway

/-! ## What a stage tells -/

namespace LoopStage

/-- The states that are published once the loop is at a stage. -/
def shown : LoopStage → List ServerState
  | unborn => [.idle, .starting]
  | refused => [.idle, .starting]
  | bound => [.idle, .starting]
  | waiting => [.idle, .starting, .serving]
  | accepting => [.idle, .starting, .serving]
  | leaving => [.idle, .starting, .serving]
  | closed => [.idle, .starting, .serving]
  | draining => [.idle, .starting, .serving, .draining]
  | drained _ => [.idle, .starting, .serving, .draining]
  | ended _ => [.idle, .starting, .serving, .draining, .stopped]

/-- Whether the listener is open. -/
def isOpen : LoopStage → Bool
  | bound => true
  | waiting => true
  | accepting => true
  | leaving => true
  | _ => false

/-- Whether the loop runs or has run. -/
def isBegun : LoopStage → Bool
  | unborn => false
  | refused => false
  | bound => false
  | _ => true

/-- Whether the loop is past its last turn. -/
def hasLeft : LoopStage → Bool
  | leaving => true
  | closed => true
  | draining => true
  | drained _ => true
  | ended _ => true
  | _ => false

theorem isBegun_of_hasLeft {stage : LoopStage} (left : stage.hasLeft = true) :
    stage.isBegun = true := by
  cases stage <;> first | rfl | cases left

theorem shown_ne_short (stage : LoopStage) :
    stage.shown ≠ [] ∧ stage.shown.getLast? ≠ some .idle := by
  cases stage with
  | drained result => simp [shown]
  | ended result => simp [shown]
  | _ => decide

end LoopStage

/-- Whether the owner has asked for a shutdown or dropped the handle. -/
def HandleUse.hasAsked : HandleUse → Bool
  | none => false
  | held => false
  | awaiting => true
  | returned _ => true
  | dropped => true

namespace Lifecycle

/-- The stage of the loop agrees with everything else. -/
structure Sound (life : Lifecycle) : Prop where
  shows : life.published = life.stage.shown ∨
    life.stage = .unborn ∧ (life.published = [] ∨ life.published = [.idle])
  listens : life.listening = life.stage.isOpen
  owned : life.handle = .none ↔ life.stage.isBegun = false
  asked : life.stage.hasLeft = true → life.handle.hasAsked = true
  returned : ∀ result, life.handle = .returned result → life.stage = .ended result

theorem Sound.start : Lifecycle.new.Sound where
  shows := Or.inr ⟨rfl, Or.inl rfl⟩
  listens := rfl
  owned := iff_of_true rfl rfl
  asked := fun left => nomatch left
  returned := fun _ same => nomatch same

/-- Past the start of the loop its stage tells exactly what is published. -/
theorem Sound.published_eq {life : Lifecycle} (sound : life.Sound) {stage : LoopStage}
    (reached : life.stage = stage) (born : stage ≠ .unborn) : life.published = stage.shown := by
  subst reached
  rcases sound.shows with told | ⟨unborn, _⟩
  · exact told
  · exact absurd unborn born

/-- A state that is published before the loop begins is published before there is a loop. -/
theorem Sound.unborn_of_short {life : Lifecycle} (sound : life.Sound)
    (short : life.published = [] ∨ life.state? = some .idle) : life.stage = .unborn := by
  rcases sound.shows with told | ⟨unborn, _⟩
  · obtain ⟨nonempty, notIdle⟩ := life.stage.shown_ne_short
    rw [state?, told] at short
    rcases short with empty | idle
    · exact absurd empty nonempty
    · exact absurd idle notIdle
  · exact unborn

theorem Sound.published_of_idle {life : Lifecycle} (sound : life.Sound)
    (idle : life.state? = some .idle) : life.published = [.idle] := by
  rcases sound.shows with told | ⟨_, nothing | told⟩
  · rw [state?, told] at idle
    exact absurd idle life.stage.shown_ne_short.2
  · rw [state?, nothing] at idle
    exact nomatch idle
  · exact told

theorem Sound.published_of_starting {life : Lifecycle} (sound : life.Sound)
    (starting : life.state? = some .starting) (unborn : life.stage = .unborn) :
    life.published = [.idle, .starting] := by
  rcases sound.shows with told | ⟨_, nothing | told⟩
  · rw [told, unborn]
    rfl
  · rw [state?, nothing] at starting
    exact nomatch starting
  · rw [state?, told] at starting
    exact nomatch starting

/-- An event that changes neither the stage nor what the stage tells. -/
theorem Sound.unmoved {life next : Lifecycle} (sound : life.Sound)
    (published : next.published = life.published) (stage : next.stage = life.stage)
    (handle : next.handle = life.handle) (listening : next.listening = life.listening) :
    next.Sound := by
  obtain ⟨shows, listens, owned, asked, returned⟩ := sound
  constructor
  · rw [published, stage]
    exact shows
  · rw [listening, stage]
    exact listens
  · rw [handle, stage]
    exact owned
  · rw [handle, stage]
    exact asked
  · rw [handle, stage]
    exact returned

/-- Before the loop begins nobody has a handle. -/
theorem Sound.unbegun {life : Lifecycle} (ownerless : life.handle = .none)
    (early : life.stage.isBegun = false) (published : life.published = life.stage.shown)
    (listening : life.listening = life.stage.isOpen) : life.Sound where
  shows := Or.inl published
  listens := listening
  owned := iff_of_true ownerless early
  asked := by
    intro left
    cases stage : life.stage <;> simp [stage, LoopStage.isBegun, LoopStage.hasLeft] at early left
  returned := fun _ same => nomatch ownerless.symm.trans same

/-- Between two stages of the running loop the owner keeps what is due to the later stage. -/
theorem Sound.moved {life next : Lifecycle} (sound : life.Sound)
    (handle : next.handle = life.handle) (begun : life.stage.isBegun = true)
    (stillBegun : next.stage.isBegun = true) (going : ∀ result, life.stage ≠ .ended result)
    (published : next.published = next.stage.shown)
    (listening : next.listening = next.stage.isOpen)
    (asked : next.stage.hasLeft = true → life.handle.hasAsked = true) : next.Sound := by
  have owner : life.handle ≠ .none := by
    intro same
    rw [sound.owned.mp same] at begun
    exact nomatch begun
  constructor
  · exact Or.inl published
  · exact listening
  · rw [handle, stillBegun]
    exact iff_of_false owner (by decide)
  · rw [handle]
    exact asked
  · intro result same
    rw [handle] at same
    exact absurd (sound.returned result same) (going result)

/-- A loop that has left goes on by itself: its owner has asked, and still has. -/
theorem Sound.departed {life next : Lifecycle} (sound : life.Sound) {stage : LoopStage}
    (reached : life.stage = stage) (left : stage.hasLeft = true)
    (going : ∀ result, stage ≠ .ended result) (handle : next.handle = life.handle)
    (stillLeft : next.stage.hasLeft = true)
    (published : life.published = stage.shown → next.published = next.stage.shown)
    (listening : life.listening = stage.isOpen → next.listening = next.stage.isOpen) :
    next.Sound := by
  subst reached
  have begun := LoopStage.isBegun_of_hasLeft left
  have born : life.stage ≠ .unborn := by
    intro unborn
    rw [unborn] at begun
    exact nomatch begun
  exact sound.moved handle begun (LoopStage.isBegun_of_hasLeft stillLeft) going
    (published (sound.published_eq rfl born)) (listening sound.listens) fun _ => sound.asked left

/-- The loop goes from one turn to the next one, or to its end if it was asked to. -/
theorem Sound.turned {life next : Lifecycle} (sound : life.Sound)
    (turning : life.stage = .waiting ∨ life.stage = .accepting)
    (published : next.published = life.published) (handle : next.handle = life.handle)
    (listening : next.listening = life.listening)
    (reached : next.stage = .waiting ∨ next.stage = .accepting ∨
      next.stage = .leaving ∧ life.handle.hasAsked = true) : next.Sound := by
  have served : life.stage.isBegun = true ∧ (∀ result, life.stage ≠ .ended result) ∧
      life.published = [.idle, .starting, .serving] ∧ life.listening = true := by
    rw [sound.listens]
    rcases turning with stage | stage
    · rw [sound.published_eq stage (by decide), stage]
      exact ⟨rfl, (fun _ same => nomatch same), rfl, rfl⟩
    · rw [sound.published_eq stage (by decide), stage]
      exact ⟨rfl, (fun _ same => nomatch same), rfl, rfl⟩
  obtain ⟨begun, going, told, listens⟩ := served
  rw [← published] at told
  rw [← listening] at listens
  rcases reached with stage | stage | ⟨stage, asked⟩
  · refine sound.moved handle begun ?_ going ?_ ?_ ?_ <;> rw [stage]
    · rfl
    · exact told
    · exact listens
    · exact fun left => nomatch left
  · refine sound.moved handle begun ?_ going ?_ ?_ ?_ <;> rw [stage]
    · rfl
    · exact told
    · exact listens
    · exact fun left => nomatch left
  · refine sound.moved handle begun ?_ going ?_ ?_ (fun _ => asked) <;> rw [stage]
    · rfl
    · exact told
    · exact listens

/-- Whatever the owner does to a handle, the loop does not move. -/
theorem Sound.used {life : Lifecycle} (sound : life.Sound) {use : HandleUse}
    (kept : life.handle ≠ .none) (taken : use ≠ .none) (asks : use.hasAsked = true)
    (ends : ∀ result, use = .returned result → life.stage = .ended result) :
    ({ life with handle := use } : Lifecycle).Sound where
  shows := sound.shows
  listens := sound.listens
  owned := by
    have begun : ¬ life.stage.isBegun = false := fun early => kept (sound.owned.mpr early)
    exact iff_of_false taken begun
  asked := fun _ => asks
  returned := ends

theorem isTriggered_iff {life : Lifecycle} (sound : life.Sound)
    (going : ∀ result, life.stage ≠ .ended result) :
    life.isTriggered = true ↔ life.handle.hasAsked = true := by
  cases used : life.handle with
  | returned result => exact absurd (sound.returned result used) (going result)
  | none => simp [isTriggered, used, HandleUse.hasAsked]
  | held => simp [isTriggered, used, HandleUse.hasAsked]
  | awaiting => simp [isTriggered, used, HandleUse.hasAsked]
  | dropped => simp [isTriggered, used, HandleUse.hasAsked]

theorem Sound.step {life next : Lifecycle} (sound : life.Sound) {event : LifeEvent}
    (taken : life.step event = some next) : next.Sound := by
  cases event with
  | create =>
      obtain ⟨nothing, ⟨⟩⟩ := Option.ite_none_right_eq_some.mp taken
      have unborn := sound.unborn_of_short (Or.inl nothing)
      refine ⟨Or.inr ⟨unborn, Or.inr ?_⟩, sound.listens, sound.owned, sound.asked, sound.returned⟩
      rw [publish, nothing]
      rfl
  | bindRoutes =>
      obtain ⟨idle, ⟨⟩⟩ := Option.ite_none_right_eq_some.mp taken
      have unborn := sound.unborn_of_short (Or.inr idle)
      refine ⟨Or.inl ?_, sound.listens, sound.owned, sound.asked, sound.returned⟩
      simp [publish, sound.published_of_idle idle, unborn, LoopStage.shown]
  | bindPort free =>
      obtain ⟨⟨starting, unborn⟩, moved⟩ := Option.ite_none_right_eq_some.mp taken
      have ownerless : life.handle = .none := sound.owned.mpr (by rw [unborn]; rfl)
      have told := sound.published_of_starting starting unborn
      cases free with
      | true =>
          cases moved
          exact Sound.unbegun ownerless rfl told rfl
      | false =>
          cases moved
          have unheard : life.listening = false := by rw [sound.listens, unborn]; rfl
          exact Sound.unbegun ownerless rfl told unheard
  | loseAddress =>
      obtain ⟨bound, ⟨⟩⟩ := Option.ite_none_right_eq_some.mp taken
      have ownerless : life.handle = .none := sound.owned.mpr (by rw [bound]; rfl)
      have told := sound.published_eq bound (by decide)
      exact Sound.unbegun ownerless rfl told rfl
  | publishServing =>
      obtain ⟨bound, ⟨⟩⟩ := Option.ite_none_right_eq_some.mp taken
      have told := sound.published_eq bound (by decide)
      refine ⟨Or.inl ?_, ?_, ?_, (fun left => nomatch left), (fun result same => nomatch same)⟩
      · simp [publish, told, LoopStage.shown]
      · simp [publish, sound.listens, bound, LoopStage.isOpen]
      · exact iff_of_false (fun same => nomatch same) (fun same => nomatch same)
  | connect =>
      obtain ⟨_, ⟨⟩⟩ := Option.ite_none_right_eq_some.mp taken
      exact sound.unmoved rfl rfl rfl rfl
  | beginTurn =>
      obtain ⟨waiting, ⟨⟩⟩ := Option.ite_none_right_eq_some.mp taken
      rw [Lifecycle.beginTurn]
      by_cases triggered : life.isTriggered = true
      · have asked := (isTriggered_iff sound (by simp [waiting])).mp triggered
        rw [if_pos triggered]
        exact sound.turned (Or.inl waiting) rfl rfl rfl (Or.inr (Or.inr ⟨rfl, asked⟩))
      · rw [if_neg triggered]
        exact sound.turned (Or.inl waiting) rfl rfl rfl (Or.inr (Or.inl rfl))
  | accept =>
      obtain ⟨accepting, moved⟩ := Option.ite_none_right_eq_some.mp taken
      rw [accept?] at moved
      split at moved
      · exact nomatch moved
      · cases moved
        exact sound.turned (Or.inr accepting) rfl rfl rfl (Or.inl rfl)
  | pass =>
      obtain ⟨accepting, ⟨⟩⟩ := Option.ite_none_right_eq_some.mp taken
      exact sound.turned (Or.inr accepting) rfl rfl rfl (Or.inl rfl)
  | finish =>
      simp only [Lifecycle.step] at taken
      split at taken
      · exact nomatch taken
      · cases taken
        exact sound.unmoved rfl rfl rfl rfl
  | requestShutdown =>
      obtain ⟨held, ⟨⟩⟩ := Option.ite_none_right_eq_some.mp taken
      exact sound.used (by simp [held]) (by decide) rfl fun result same => nomatch same
  | dropHandle =>
      obtain ⟨kept, ⟨⟩⟩ := Option.ite_none_right_eq_some.mp taken
      have owned : life.handle ≠ .none := by rcases kept with held | awaiting <;> simp [*]
      exact sound.used owned (by decide) rfl fun result same => nomatch same
  | closeListener =>
      obtain ⟨leaving, ⟨⟩⟩ := Option.ite_none_right_eq_some.mp taken
      exact sound.departed leaving rfl (by simp) rfl rfl id fun _ => rfl
  | publishDraining =>
      obtain ⟨closed, ⟨⟩⟩ := Option.ite_none_right_eq_some.mp taken
      refine sound.departed closed rfl (by simp) rfl rfl (fun told => ?_) id
      simp [publish, told, LoopStage.shown]
  | drainEnds result =>
      obtain ⟨⟨draining, _⟩, ⟨⟩⟩ := Option.ite_none_right_eq_some.mp taken
      exact sound.departed draining rfl (by simp) rfl rfl id id
  | publishStopped =>
      simp only [Lifecycle.step] at taken
      split at taken
      · rename_i result drained
        cases taken
        refine sound.departed drained rfl (by simp) rfl rfl (fun told => ?_) id
        simp [publish, told, LoopStage.shown]
      · exact nomatch taken
  | shutdownReturns =>
      simp only [Lifecycle.step] at taken
      split at taken
      · rename_i result ended awaiting
        cases taken
        refine sound.used (by simp [awaiting]) (by simp) rfl ?_
        intro other same
        cases same
        exact ended
      · exact nomatch taken

end Lifecycle

end FunctionGateway
