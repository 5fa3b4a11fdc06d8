import FunctionGateway.Proofs.Surface.Session
import FunctionGateway.Server.Drain

/-!
# Counting running jobs

A backend may count its jobs: one more when a job is started, one less when it is ready or is
abandoned.  Whatever is called, polled, cut off or aborted, such a count goes up and down with the
jobs that connections hold; where no connection holds a job any more, none runs on.
-/

namespace FunctionGateway

open FunctionGateway.Http

variable {α φ σ : Type}

namespace Polled

/-- How many jobs a polled answer still holds. -/
def jobs {π : Type} (own : π → Int) : Polled π → Int
  | ready _ => 0
  | pending left => own left

end Polled

/-- A number read from the shared state that tells how many jobs are running. -/
structure Backend.Tallies (backend : Backend α φ σ) (running : σ → Int) : Prop where
  start : ∀ handler request shared,
    running (backend.start handler request shared).2 = running shared + 1
  poll : ∀ job now shared,
    running (backend.poll job now shared).2 =
      running shared - 1 + (backend.poll job now shared).1.jobs fun _ => 1
  abandon : ∀ job shared, running (backend.abandon job shared) = running shared - 1

/-- How many jobs a pending answer holds. -/
def Pending.jobs : Pending φ → Int
  | job _ => 1
  | done _ => 0
  | bounded _ _ inner => inner.jobs
  | counted _ _ inner => inner.jobs
  | altered _ inner => inner.jobs

/-- How many jobs a connection holds. -/
def Connection.jobs : Connection φ → Int
  | handling pending => pending.jobs
  | _ => 0

variable {backend : Backend α φ σ} {running : σ → Int}

/-! ## Answers -/

theorem Service.jobs_call (tallies : backend.Tallies running) (service : Service α)
    (request : Request) (world : World σ) :
    running (service.call backend request world).2.shared =
      running world.shared + (service.call backend request world).1.jobs := by
  induction service generalizing world with
  | handler own => exact tallies.start own request world.shared
  | answer response => exact (Int.add_zero _).symm
  | exposition => exact (Int.add_zero _).symm
  | guarded credentials inner inductionHypothesis =>
      by_cases accepted : credentials.accept request = true
      · simp only [call, if_pos accepted]
        exact inductionHypothesis world
      · simp only [call, if_neg accepted]
        exact (Int.add_zero _).symm
  | bounded limit inner inductionHypothesis => exact inductionHypothesis world
  | counted template inner inductionHypothesis =>
      exact inductionHypothesis { world with ledger := world.ledger.enter template }
  | altered alter inner inductionHypothesis => exact inductionHypothesis world

namespace Pending

theorem jobs_abandon (tallies : backend.Tallies running) (pending : Pending φ)
    (world : World σ) :
    running (pending.abandon backend world).shared = running world.shared - pending.jobs := by
  induction pending generalizing world with
  | job own => exact tallies.abandon own world.shared
  | done response => exact (Int.sub_zero _).symm
  | bounded limit since inner inductionHypothesis => exact inductionHypothesis world
  | counted method template inner inductionHypothesis => exact inductionHypothesis world
  | altered alter inner inductionHypothesis => exact inductionHypothesis world

theorem jobs_poll (tallies : backend.Tallies running) (pending : Pending φ) (world : World σ) :
    running (pending.poll backend world).2.shared =
      running world.shared - pending.jobs + (pending.poll backend world).1.jobs jobs := by
  induction pending generalizing world with
  | job own =>
      have counted := tallies.poll own world.now world.shared
      cases polled : backend.poll own world.now world.shared with
      | mk shown after =>
          rw [polled] at counted
          simp only [poll, polled]
          cases shown <;> exact counted
  | done response => simp [poll, jobs, Polled.jobs]
  | bounded limit since inner inductionHypothesis =>
      have inside := inductionHypothesis world
      simp only [poll]
      cases polled : inner.poll backend world with
      | mk shown after =>
          rw [polled] at inside
          cases shown with
          | ready response => exact inside
          | pending left =>
              by_cases past : since.getD world.now + limit.nanos ≤ after.now
              · simp only [if_pos past, jobs_abandon tallies, inside, jobs, Polled.jobs]
                omega
              · simp only [if_neg past]
                exact inside
  | counted method template inner inductionHypothesis =>
      have inside := inductionHypothesis world
      simp only [poll]
      cases polled : inner.poll backend world with
      | mk shown after =>
          rw [polled] at inside
          cases shown <;> exact inside
  | altered alter inner inductionHypothesis =>
      have inside := inductionHypothesis world
      simp only [poll]
      cases polled : inner.poll backend world with
      | mk shown after =>
          rw [polled] at inside
          cases shown <;> exact inside

end Pending

/-! ## Connections -/

namespace Connection

/-- A move of a connection changes the number of running jobs as it changes the connection. -/
def KeepsTally (running : σ → Int)
    (move : Connection φ → World σ → Connection φ × World σ) : Prop :=
  ∀ connection world,
    running (move connection world).2.shared =
      running world.shared - connection.jobs + (move connection world).1.jobs

theorem jobs_pollPending (tallies : backend.Tallies running) (pending : Pending φ)
    (world : World σ) :
    running (pollPending backend pending world).2.shared =
      running world.shared - pending.jobs + (pollPending backend pending world).1.jobs := by
  have inside := pending.jobs_poll tallies world
  rw [pollPending]
  cases polled : pending.poll backend world with
  | mk shown after =>
      rw [polled] at inside
      cases shown <;> exact inside

theorem keepsTally_poll (tallies : backend.Tallies running) (gateway : Gateway α) :
    KeepsTally running (poll backend gateway) := by
  intro connection world
  have unchanged : ∀ count : Int, count = count - 0 + 0 := by
    intro count
    omega
  cases connection with
  | handling pending => exact jobs_pollPending tallies pending world
  | answered instant response => exact unchanged _
  | aborted => exact unchanged _
  | receiving incoming =>
      simp only [poll]
      split
      · split
        · rw [dispatch_eq_call]
          have called := Service.jobs_call tallies (target gateway.router incoming.request).1
            (target gateway.router incoming.request).2 world
          have polled := jobs_pollPending tallies
            ((target gateway.router incoming.request).1.call backend
              (target gateway.router incoming.request).2 world).1
            ((target gateway.router incoming.request).1.call backend
              (target gateway.router incoming.request).2 world).2
          simp only [polled, called, jobs]
          omega
        · exact unchanged _
      · split <;> exact unchanged _

/-- How many jobs connections hold. -/
def jobsOf (connections : List (Connection φ)) : Int :=
  connections.foldr (fun connection total => connection.jobs + total) 0

theorem jobsOf_each {move : Connection φ → World σ → Connection φ × World σ}
    (keeps : KeepsTally running move) (connections : List (Connection φ)) (world : World σ) :
    running (each move connections world).2.shared - jobsOf (each move connections world).1 =
      running world.shared - jobsOf connections := by
  induction connections generalizing world with
  | nil => rfl
  | cons first rest inductionHypothesis =>
      have own := keeps first world
      have others := inductionHypothesis (move first world).2
      simp only [each, jobsOf, List.foldr_cons] at others ⊢
      omega

theorem jobsOf_advance (tallies : backend.Tallies running) (gateway : Gateway α)
    (limit : Instant) (turns : Nat) (connections : List (Connection φ)) (world : World σ) :
    running (advance backend gateway limit turns connections world).2.shared -
        jobsOf (advance backend gateway limit turns connections world).1 =
      running world.shared - jobsOf connections := by
  induction turns generalizing connections world with
  | zero => rfl
  | succ turns inductionHypothesis =>
      have round := jobsOf_each (keepsTally_poll tallies gateway) connections world
      simp only [advance]
      cases firstWake backend gateway (each (poll backend gateway) connections world).1 with
      | none => exact round
      | some instant =>
          by_cases early : instant ≤ limit
          · simp only [if_pos early]
            exact (inductionHypothesis _ _).trans round
          · simp only [if_neg early]
            exact round

end Connection

end FunctionGateway
