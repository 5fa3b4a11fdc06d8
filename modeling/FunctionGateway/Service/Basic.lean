import FunctionGateway.Authentication
import FunctionGateway.Metrics.Exposition
import FunctionGateway.Service.Backend

/-!
# Services and their pending answers

A service is a handler of a backend, a fixed answer or the metrics exposition,
with decorations round it: a guard that asks for credentials, a write deadline,
an instrument that counts under a template, or a change made to the response.

Calling a service decides at once what can be decided: a guard rejects, an
instrument raises its gauge, the exposition is rendered. What remains is a
pending answer. Polling it polls inwards; a deadline runs from the first poll,
and at every poll the inner answer goes first. Abandoning a pending answer
lowers the gauges it holds and counts nothing.
-/

namespace FunctionGateway

open FunctionGateway.Http
open FunctionGateway.Metrics

inductive Service (α : Type) where
  | handler (handler : α)
  | answer (response : Response)
  | exposition
  | guarded (credentials : Credentials) (inner : Service α)
  | bounded (limit : Duration) (inner : Service α)
  | counted (template : String) (inner : Service α)
  | altered (change : Response → Response) (inner : Service α)

inductive Pending (φ : Type) where
  | job (job : φ)
  | done (response : Response)
  /-- `since` is the instant of the first poll. -/
  | bounded (limit : Duration) (since : Option Instant) (inner : Pending φ)
  | counted (method template : String) (inner : Pending φ)
  | altered (change : Response → Response) (inner : Pending φ)

/-- The answer of a handler that was cut off. -/
def deadlineExceeded : Response :=
  Response.statusText Status.serviceUnavailable "handler exceeded write timeout"

variable {α φ σ : Type}

def Service.call (backend : Backend α φ σ) : Service α → Request → World σ → Pending φ × World σ
  | .handler own, request, world =>
      let (job, shared) := backend.start own request world.shared
      (.job job, { world with shared })
  | .answer response, _, world => (.done response, world)
  | .exposition, _, world => (.done world.ledger.exposition, world)
  | .guarded credentials inner, request, world =>
      if credentials.accept request then
        inner.call backend request world
      else
        (.done unauthorized, world)
  | .bounded limit inner, request, world =>
      let (pending, after) := inner.call backend request world
      (.bounded limit none pending, after)
  | .counted template inner, request, world =>
      let (pending, after) :=
        inner.call backend request { world with ledger := world.ledger.enter template }
      (.counted (methodLabel request.method) template pending, after)
  | .altered change inner, request, world =>
      let (pending, after) := inner.call backend request world
      (.altered change pending, after)

namespace Pending

/-- Give an answer up before it is there. -/
def abandon (backend : Backend α φ σ) : Pending φ → World σ → World σ
  | .job own, world => { world with shared := backend.abandon own world.shared }
  | .done _, world => world
  | .bounded _ _ inner, world => inner.abandon backend world
  | .counted _ template inner, world =>
      let after := inner.abandon backend world
      { after with ledger := after.ledger.leave template }
  | .altered _ inner, world => inner.abandon backend world

/-- Poll once, at the instant the clock shows. -/
def poll (backend : Backend α φ σ) : Pending φ → World σ → Polled (Pending φ) × World σ
  | .job own, world =>
      let (polled, shared) := backend.poll own world.now world.shared
      (polled.map .job, { world with shared })
  | .done response, world => (.ready response, world)
  | .bounded limit since inner, world =>
      let began := since.getD world.now
      match inner.poll backend world with
      | (.ready response, after) => (.ready response, after)
      | (.pending left, after) =>
          if began + limit.nanos ≤ after.now then
            (.ready deadlineExceeded, left.abandon backend after)
          else
            (.pending (.bounded limit (some began) left), after)
  | .counted method template inner, world =>
      match inner.poll backend world with
      | (.ready response, after) =>
          let observation : Observation := { status := response.status, method, template }
          (.ready response,
            { after with ledger := (after.ledger.leave template).observe observation })
      | (.pending left, after) => (.pending (.counted method template left), after)
  | .altered change inner, world =>
      match inner.poll backend world with
      | (.ready response, after) => (.ready (change response), after)
      | (.pending left, after) => (.pending (.altered change left), after)

/-- The earlier of two instants, where there are any. -/
def earlier : Option Instant → Option Instant → Option Instant
  | none, second => second
  | first, none => first
  | some first, some second => some (min first second)

/-- The first instant at which a timer of a polled answer fires. -/
def wake (backend : Backend α φ σ) : Pending φ → Option Instant
  | .job own => backend.wake own
  | .done _ => none
  | .bounded limit since inner => earlier (since.map (· + limit.nanos)) (inner.wake backend)
  | .counted _ _ inner => inner.wake backend
  | .altered _ inner => inner.wake backend

/-- Await an answer with nothing else going on: poll it and, if it is not ready, let the
clock jump to its first timer and poll it again. Nothing comes of an answer without
timers that is not ready by itself. -/
def await (backend : Backend α φ σ) (pending : Pending φ) (world : World σ) :
    Polled (Pending φ) × World σ :=
  match pending.poll backend world with
  | (.ready response, after) => (.ready response, after)
  | (.pending left, after) =>
      match left.wake backend with
      | none => (.pending left, after)
      | some instant => left.poll backend (after.reach instant)

end Pending

/-- Call a service and await its answer. -/
def Service.respond (backend : Backend α φ σ) (service : Service α) (request : Request)
    (world : World σ) : Polled (Pending φ) × World σ :=
  let (pending, after) := service.call backend request world
  pending.await backend after

end FunctionGateway
