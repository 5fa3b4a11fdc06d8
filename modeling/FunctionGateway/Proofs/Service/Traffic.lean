import FunctionGateway.Service.Basic

/-!
# Requests under way together

A traffic holds the pending answers of any number of calls over one world.  Its
events call a service, poll or drop one of the answers, move the clock, or read a
gauge, and they may come in any order.

Beside what runs, a traffic keeps a history of the instruments.  Each instrument that
a call enters makes one future, and that future later completes with the status
it passes on, or is dropped.  The history exists for statements only: no
step reads it.
-/

namespace FunctionGateway

open FunctionGateway.Http
open FunctionGateway.Metrics

variable {α φ σ : Type}

/-! ## What becomes of the futures of instruments -/

/-- The templates of the instruments that a call enters, outermost first.  A guard
that rejects the request keeps it from the instruments inside. -/
def Service.entered : Service α → Request → List String
  | .handler _, _ => []
  | .answer _, _ => []
  | .exposition, _ => []
  | .guarded credentials inner, request =>
      if credentials.accept request then inner.entered request else []
  | .bounded _ inner, request => inner.entered request
  | .counted template inner, request => template :: inner.entered request
  | .altered _ inner, request => inner.entered request

namespace Pending

/-- The templates of the instruments whose futures an answer holds, outermost first. -/
def held : Pending φ → List String
  | .job _ => []
  | .done _ => []
  | .bounded _ _ inner => inner.held
  | .counted _ template inner => template :: inner.held
  | .altered _ inner => inner.held

/-- The instruments whose futures complete when an answer is polled, each with the
status it passes on, outermost first. -/
def completing (backend : Backend α φ σ) : Pending φ → World σ → List (Status × String)
  | .job _, _ => []
  | .done _, _ => []
  | .bounded _ _ inner, world => inner.completing backend world
  | .counted _ template inner, world =>
      match inner.poll backend world with
      | (.ready response, _) => (response.status, template) :: inner.completing backend world
      | (.pending _, _) => inner.completing backend world
  | .altered _ inner, world => inner.completing backend world

/-- The instruments whose futures are dropped when an answer is polled: those inside a
deadline that has passed while the answer inside it is still not ready. -/
def dropping (backend : Backend α φ σ) : Pending φ → World σ → List String
  | .job _, _ => []
  | .done _, _ => []
  | .bounded limit since inner, world =>
      match inner.poll backend world with
      | (.ready _, _) => inner.dropping backend world
      | (.pending left, after) =>
          if since.getD world.now + limit.nanos ≤ after.now then left.held
          else inner.dropping backend world
  | .counted _ _ inner, world => inner.dropping backend world
  | .altered _ inner, world => inner.dropping backend world

end Pending

/-- A future of an instrument that completed: the method of its request, the status
it passed on, and the template of the instrument. -/
structure Completion where
  method : Method
  status : Status
  template : String
deriving DecidableEq

/-- What became of the futures of instruments so far, newest first. -/
structure History where
  made : List String := []
  completed : List Completion := []
  dropped : List String := []

/-! ## The traffic and its events -/

/-- A pending answer and the method of its request. -/
structure Flight (φ : Type) where
  method : Method
  pending : Pending φ

/-- The calls made so far, in order; a call whose answer was given or dropped
has no flight any more.  The answers are kept newest first, each with the place of its
call. -/
structure Traffic (φ σ : Type) where
  world : World σ
  flights : List (Option (Flight φ)) := []
  answers : List (Nat × Response) := []
  history : History := {}

namespace Traffic

/-- Nothing is under way and nothing was counted yet. -/
def start (now : Instant) (shared : σ) : Traffic φ σ :=
  { world := { now, ledger := Ledger.empty, shared } }

inductive Event (α : Type) where
  | call (service : Service α) (request : Request)
  | poll (index : Nat)
  | drop (index : Nat)
  | reach (instant : Instant)
  | read (template : String)

/-- The flight of a call, as long as it is under way. -/
def flight? (traffic : Traffic φ σ) (index : Nat) : Option (Flight φ) :=
  (traffic.flights[index]?).join

def call (backend : Backend α φ σ) (service : Service α) (request : Request)
    (traffic : Traffic φ σ) : Traffic φ σ :=
  let (pending, after) := service.call backend request traffic.world
  { traffic with
    world := after
    flights := traffic.flights ++ [some ⟨request.method, pending⟩]
    history :=
      { traffic.history with made := service.entered request ++ traffic.history.made } }

/-- Poll the answer of a call.  One that is ready is given and not polled again. -/
def poll (backend : Backend α φ σ) (index : Nat) (traffic : Traffic φ σ) : Traffic φ σ :=
  match traffic.flight? index with
  | none => traffic
  | some flight =>
      match flight.pending.poll backend traffic.world with
      | (.pending left, after) =>
          { traffic with
            world := after
            flights := traffic.flights.set index (some { flight with pending := left }) }
      | (.ready response, after) =>
          let completed := (flight.pending.completing backend traffic.world).map
            fun (status, template) => Completion.mk flight.method status template
          { world := after
            flights := traffic.flights.set index none
            answers := (index, response) :: traffic.answers
            history :=
              { traffic.history with
                completed := completed ++ traffic.history.completed
                dropped := flight.pending.dropping backend traffic.world ++
                  traffic.history.dropped } }

/-- Drop the answer of a call before it is there. -/
def drop (backend : Backend α φ σ) (index : Nat) (traffic : Traffic φ σ) : Traffic φ σ :=
  match traffic.flight? index with
  | none => traffic
  | some flight =>
      { traffic with
        world := flight.pending.abandon backend traffic.world
        flights := traffic.flights.set index none
        history :=
          { traffic.history with dropped := flight.pending.held ++ traffic.history.dropped } }

def step (backend : Backend α φ σ) (traffic : Traffic φ σ) : Event α → Traffic φ σ
  | .call service request => traffic.call backend service request
  | .poll index => traffic.poll backend index
  | .drop index => traffic.drop backend index
  | .reach instant => { traffic with world := traffic.world.reach instant }
  | .read template =>
      { traffic with world.ledger := traffic.world.ledger.touch template }

def run (backend : Backend α φ σ) (traffic : Traffic φ σ) (events : List (Event α)) :
    Traffic φ σ :=
  events.foldl (step backend) traffic

/-- The templates of the instruments whose futures a call holds. -/
def heldBy : Option (Flight φ) → List String
  | some flight => flight.pending.held
  | none => []

/-- The number of futures of instruments under `template` that are under way. -/
def underWay (traffic : Traffic φ σ) (template : String) : Nat :=
  (traffic.flights.flatMap heldBy).count template

end Traffic

end FunctionGateway
