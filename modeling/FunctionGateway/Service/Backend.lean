import FunctionGateway.Http.Request
import FunctionGateway.Metrics.Ledger
import FunctionGateway.Time

/-!
# Backends

A backend is what finally answers requests. Handing a request to one of its
handlers starts a job; a job is polled until it is ready, or abandoned before
that. Jobs of one backend may share state. A job that is not ready may know the
instant at which it will be, which lets a clock jump there.
-/

namespace FunctionGateway

open FunctionGateway.Http
open FunctionGateway.Metrics

/-- What polling shows: a response, or what is left to be polled. -/
inductive Polled (π : Type) where
  | ready (response : Response)
  | pending (left : π)

def Polled.map {π ρ : Type} (wrap : π → ρ) : Polled π → Polled ρ
  | .ready response => .ready response
  | .pending left => .pending (wrap left)

/-- Handlers `α` whose jobs `φ` share a state `σ`. -/
structure Backend (α φ σ : Type) where
  start : α → Request → σ → φ × σ
  poll : φ → Instant → σ → Polled φ × σ
  abandon : φ → σ → σ
  wake : φ → Option Instant

/-- The clock, the ledger and the state that the jobs of a backend share. -/
structure World (σ : Type) where
  now : Instant
  ledger : Ledger
  shared : σ

/-- Let the clock reach `instant`; it never goes back. -/
def World.reach {σ : Type} (world : World σ) (instant : Instant) : World σ :=
  { world with now := max world.now instant }

end FunctionGateway
