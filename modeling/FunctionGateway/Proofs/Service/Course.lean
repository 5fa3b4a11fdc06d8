import FunctionGateway.Service.Stack

/-!
# The course of one answer

One answer is followed through any course of events: the clock moves on, other events change what
jobs share, the answer is polled, and it may be dropped.  The course ends when the answer is
there or was dropped; nothing that comes later shows anything or is done to the job.

A watched backend keeps a record of what is done to its jobs.
-/

namespace FunctionGateway

open FunctionGateway.Http

variable {α φ σ : Type}

/-! ## Moves -/

inductive Move (σ : Type) where
  | reach (instant : Instant)
  /-- Something else changes what jobs share. -/
  | meanwhile (change : σ → σ)
  | poll
  | drop

/-- What a poll showed: the response, or that there is none yet. -/
structure Sight where
  instant : Instant
  response? : Option Response
deriving DecidableEq

structure Course (φ σ : Type) where
  world : World σ
  /-- The answer, until it is given or dropped. -/
  pending? : Option (Pending φ)
  /-- What the polls showed, the first one first. -/
  sights : List Sight := []

namespace Course

/-- Take note of a poll. -/
def note (course : Course φ σ) : Polled (Pending φ) × World σ → Course φ σ
  | (.ready response, after) =>
      ⟨after, none, course.sights ++ [⟨course.world.now, some response⟩]⟩
  | (.pending left, after) =>
      ⟨after, some left, course.sights ++ [⟨course.world.now, none⟩]⟩

def step (backend : Backend α φ σ) (course : Course φ σ) : Move σ → Course φ σ
  | .reach instant => { course with world := course.world.reach instant }
  | .meanwhile change => { course with world.shared := change course.world.shared }
  | .poll =>
      match course.pending? with
      | some pending => course.note (pending.poll backend course.world)
      | none => course
  | .drop =>
      match course.pending? with
      | some pending =>
          { course with world := pending.abandon backend course.world, pending? := none }
      | none => course

def run (backend : Backend α φ σ) (course : Course φ σ) (moves : List (Move σ)) : Course φ σ :=
  moves.foldl (step backend) course

end Course

/-- Call a service and follow its answer. -/
def Service.follow (backend : Backend α φ σ) (service : Service α) (request : Request)
    (world : World σ) (moves : List (Move σ)) : Course φ σ :=
  let (pending, after) := service.call backend request world
  Course.run backend ⟨after, some pending, []⟩ moves

/-! ## Courses that are over -/

namespace Course

section Closed

variable (backend : Backend α φ σ) {course : Course φ σ}

/-- Later sights come behind earlier ones. -/
theorem sights_step (course : Course φ σ) (move : Move σ) :
    ∃ more, (course.step backend move).sights = course.sights ++ more := by
  have unchanged : ∃ more, course.sights = course.sights ++ more :=
    ⟨[], (List.append_nil _).symm⟩
  cases move with
  | reach instant => exact unchanged
  | meanwhile change => exact unchanged
  | poll =>
      simp only [step]
      cases course.pending? with
      | none => exact unchanged
      | some pending =>
          simp only
          obtain ⟨shown, after⟩ := pending.poll backend course.world
          cases shown <;> exact ⟨_, rfl⟩
  | drop =>
      simp only [step]
      cases course.pending? <;> exact unchanged

/-- What is over stays over. -/
theorem step_of_closed (closed : course.pending? = none) (move : Move σ) :
    (course.step backend move).pending? = none ∧
      (course.step backend move).sights = course.sights := by
  cases move with
  | reach instant => exact ⟨closed, rfl⟩
  | meanwhile change => exact ⟨closed, rfl⟩
  | poll => simp only [step, closed, and_self]
  | drop => simp only [step, closed, and_self]

theorem closed_of_drop {moves : List (Move σ)}
    (dropped : .drop ∈ moves ∨ course.pending? = none) :
    (course.run backend moves).pending? = none := by
  induction moves generalizing course with
  | nil => exact dropped.resolve_left List.not_mem_nil
  | cons move rest inductionHypothesis =>
      apply inductionHypothesis
      rcases dropped with member | closed
      · rcases List.mem_cons.mp member with rfl | later
        · refine Or.inr ?_
          rw [step]
          split
          · rfl
          · assumption
        · exact Or.inl later
      · exact Or.inr (step_of_closed backend closed move).1

end Closed

end Course

/-! ## What is done to a job -/

inductive Touch where
  | polled (instant : Instant)
  | abandoned
deriving DecidableEq

/-- The backend that keeps a record of what is done to its jobs, the first one first. -/
def Backend.watched (backend : Backend α φ σ) : Backend α φ (σ × List Touch) where
  start := fun handler request (shared, touches) =>
    let (job, next) := backend.start handler request shared
    (job, next, touches)
  poll := fun job now (shared, touches) =>
    let (polled, next) := backend.poll job now shared
    (polled, next, touches ++ [.polled now])
  abandon := fun job (shared, touches) => (backend.abandon job shared, touches ++ [.abandoned])
  wake := backend.wake

/-- A move that leaves the record as it is. -/
def Move.watched : Move σ → Move (σ × List Touch)
  | reach instant => .reach instant
  | meanwhile change => .meanwhile fun (shared, touches) => (change shared, touches)
  | poll => .poll
  | drop => .drop

/-- The polls of a job that are shown by polls of its answer. -/
def Sight.touches (sights : List Sight) : List Touch :=
  sights.map fun sight => .polled sight.instant

namespace Course

section Touches

variable (backend : Backend α φ σ) {course : Course φ (σ × List Touch)}

/-- Polling a job adds this poll to the record. -/
theorem poll_watched (job : φ) (world : World (σ × List Touch)) :
    ∃ (shown : Polled φ) (after : World (σ × List Touch)),
      (Pending.job job).poll backend.watched world = (shown.map .job, after) ∧
        after.shared.2 = world.shared.2 ++ [.polled world.now] :=
  ⟨_, _, rfl, rfl⟩

/-- Nothing is done to a job whose answer is over. -/
theorem touches_of_closed (closed : course.pending? = none) (move : Move σ) :
    (course.step backend.watched move.watched).world.shared.2 = course.world.shared.2 := by
  cases move with
  | reach instant => rfl
  | meanwhile change => rfl
  | poll => simp only [step, Move.watched, closed]
  | drop => simp only [step, Move.watched, closed]

/-- Nothing is done later, either. -/
theorem touches_run_of_closed (closed : course.pending? = none) (moves : List (Move σ)) :
    (course.run backend.watched (moves.map Move.watched)).world.shared.2 =
      course.world.shared.2 := by
  induction moves generalizing course with
  | nil => rfl
  | cons move rest inductionHypothesis =>
      have closedStill := (step_of_closed backend.watched closed move.watched).1
      exact (inductionHypothesis closedStill).trans (touches_of_closed backend closed move)

end Touches

end Course

end FunctionGateway
