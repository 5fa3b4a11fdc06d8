import FunctionGateway.Proofs.Service.Traffic

/-!
# Recording who is called

A recording backend keeps, beside its own state, the list of the calls that its handlers
have received.  A call of a service adds the handler inside all decorations, or nothing;
polling and dropping add nothing.
-/

namespace FunctionGateway

open FunctionGateway.Http

variable {α φ σ : Type}

/-- The handler inside all decorations, if there is one. -/
def Service.core? : Service α → Option α
  | .handler own => some own
  | .answer _ => none
  | .exposition => none
  | .guarded _ inner => inner.core?
  | .bounded _ inner => inner.core?
  | .counted _ inner => inner.core?
  | .altered _ inner => inner.core?

/-- The calls that handlers received, newest first. -/
abbrev Calls (α : Type) := List (α × Request)

/-- The backend that keeps a record of the calls to its handlers. -/
def Backend.recording (backend : Backend α φ σ) : Backend α φ (σ × Calls α) where
  start := fun handler request (shared, calls) =>
    let (job, next) := backend.start handler request shared
    (job, next, (handler, request) :: calls)
  poll := fun job now (shared, calls) =>
    let (polled, next) := backend.poll job now shared
    (polled, next, calls)
  abandon := fun job (shared, calls) => (backend.abandon job shared, calls)
  wake := backend.wake

namespace Backend

/-- Handing a request to a service calls the handler inside all decorations, or none. -/
theorem calls_call (backend : Backend α φ σ) (service : Service α) (request : Request)
    (world : World (σ × Calls α)) :
    (service.call backend.recording request world).2.shared.2 = world.shared.2 ∨
      ∃ handler, service.core? = some handler ∧
        (service.call backend.recording request world).2.shared.2 =
          (handler, request) :: world.shared.2 := by
  induction service generalizing world with
  | handler own => exact Or.inr ⟨own, rfl, rfl⟩
  | answer response => exact Or.inl rfl
  | exposition => exact Or.inl rfl
  | guarded credentials inner inductionHypothesis =>
      by_cases accepted : credentials.accept request = true
      · simpa [Service.call, Service.core?, accepted] using inductionHypothesis world
      · exact Or.inl (by simp [Service.call, accepted])
  | bounded limit inner inductionHypothesis => exact inductionHypothesis world
  | counted template inner inductionHypothesis =>
      exact inductionHypothesis { world with ledger := world.ledger.enter template }
  | altered change inner inductionHypothesis => exact inductionHypothesis world

theorem calls_abandon (backend : Backend α φ σ) (pending : Pending φ)
    (world : World (σ × Calls α)) :
    (pending.abandon backend.recording world).shared.2 = world.shared.2 := by
  induction pending generalizing world with
  | job own => rfl
  | done response => rfl
  | bounded limit since inner inductionHypothesis => exact inductionHypothesis world
  | counted method template inner inductionHypothesis => exact inductionHypothesis world
  | altered change inner inductionHypothesis => exact inductionHypothesis world

/-- Polling calls nobody. -/
theorem calls_poll (backend : Backend α φ σ) (pending : Pending φ)
    (world : World (σ × Calls α)) :
    (pending.poll backend.recording world).2.shared.2 = world.shared.2 := by
  induction pending generalizing world with
  | job own => rfl
  | done response => rfl
  | bounded limit since inner inductionHypothesis =>
      have within := inductionHypothesis world
      simp only [Pending.poll]
      split
      · rename_i response after polled
        simpa only [polled] using within
      · rename_i left after polled
        split
        · rw [calls_abandon]
          simpa only [polled] using within
        · simpa only [polled] using within
  | counted method template inner inductionHypothesis =>
      have within := inductionHypothesis world
      simp only [Pending.poll]
      split <;> rename_i polled <;> simpa only [polled] using within
  | altered change inner inductionHypothesis =>
      have within := inductionHypothesis world
      simp only [Pending.poll]
      split <;> rename_i polled <;> simpa only [polled] using within

end Backend

theorem Traffic.calls_poll (backend : Backend α φ σ) (traffic : Traffic φ (σ × Calls α))
    (index : Nat) :
    (traffic.poll backend.recording index).world.shared.2 = traffic.world.shared.2 := by
  rw [Traffic.poll]
  split
  · rfl
  · rename_i flight _
    have same := Backend.calls_poll backend flight.pending traffic.world
    split <;> rename_i polled <;> simpa only [polled] using same

theorem Traffic.calls_drop (backend : Backend α φ σ) (traffic : Traffic φ (σ × Calls α))
    (index : Nat) :
    (traffic.drop backend.recording index).world.shared.2 = traffic.world.shared.2 := by
  rw [Traffic.drop]
  split
  · rfl
  · exact Backend.calls_abandon backend _ traffic.world

end FunctionGateway
