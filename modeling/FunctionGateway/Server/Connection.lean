import FunctionGateway.Gateway

/-!
# Connections with a request in flight

A connection first receives the body of its request. A body that breaks off is
answered 400, and one that is not complete within the read timeout 408, both
without routing the request; a body that is complete at the very end of the
timeout is in time. The complete request is dispatched, and its answer is polled
until it is ready.

Several connections are moved on together: all are polled at one instant, then
the clock goes to the first instant at which one of them can move.
-/

namespace FunctionGateway

open FunctionGateway.Http

/-- What becomes of a request's body. -/
inductive Delivery where
  | complete (instant : Instant)
  | broken (instant : Instant)
  | never
deriving DecidableEq

structure Incoming where
  /-- The request as it will be once its body is there. -/
  request : Request
  since : Instant
  delivery : Delivery

/-- How far a connection is with its request. -/
inductive Connection (φ : Type) where
  | receiving (incoming : Incoming)
  | handling (pending : Pending φ)
  | answered (instant : Instant) (response : Response)
  | aborted

/-- The instant at which a limit that runs since some instant is over; zero is no limit. -/
def limitEnd (limit : Duration) (since : Instant) : Option Instant :=
  if limit.isZero then none else some (since + limit.nanos)

/-- Whether an instant, if there is one, has come. -/
def hasCome (instant? : Option Instant) (now : Instant) : Bool :=
  match instant? with
  | some instant => instant ≤ now
  | none => false

/-- The instant at which a delivery ends. -/
def Delivery.instant? : Delivery → Option Instant
  | .complete instant => some instant
  | .broken instant => some instant
  | .never => none

namespace Connection

variable {α φ σ : Type}

def isOpen : Connection φ → Bool
  | receiving _ => true
  | handling _ => true
  | answered _ _ => false
  | aborted => false

/-- Poll an answer on behalf of its connection. -/
def pollPending (backend : Backend α φ σ) (pending : Pending φ) (world : World σ) :
    Connection φ × World σ :=
  match pending.poll backend world with
  | (.ready response, after) => (answered world.now response, after)
  | (.pending left, after) => (handling left, after)

/-- Move a connection on as far as it gets at the present instant. -/
def poll (backend : Backend α φ σ) (gateway : Gateway α) :
    Connection φ → World σ → Connection φ × World σ
  | receiving incoming, world =>
      if hasCome incoming.delivery.instant? world.now then
        match incoming.delivery with
        | .complete _ =>
            let (pending, after) := dispatch backend gateway.router incoming.request world
            pollPending backend pending after
        | _ => (answered world.now (Response.ofStatus Status.badRequest), world)
      else if hasCome (limitEnd gateway.config.readTimeout incoming.since) world.now then
        (answered world.now (Response.ofStatus Status.requestTimeout), world)
      else
        (receiving incoming, world)
  | handling pending, world => pollPending backend pending world
  | answered instant response, world => (answered instant response, world)
  | aborted, world => (aborted, world)

/-- The first instant at which a connection can move on by itself. -/
def wake (backend : Backend α φ σ) (gateway : Gateway α) : Connection φ → Option Instant
  | receiving incoming =>
      Pending.earlier incoming.delivery.instant?
        (limitEnd gateway.config.readTimeout incoming.since)
  | handling pending => pending.wake backend
  | answered _ _ => none
  | aborted => none

def abort (backend : Backend α φ σ) : Connection φ → World σ → Connection φ × World σ
  | handling pending, world => (aborted, pending.abandon backend world)
  | receiving _, world => (aborted, world)
  | answered instant response, world => (answered instant response, world)
  | aborted, world => (aborted, world)

def each (move : Connection φ → World σ → Connection φ × World σ) :
    List (Connection φ) → World σ → List (Connection φ) × World σ
  | [], world => ([], world)
  | first :: rest, world =>
      let (moved, after) := move first world
      let (others, final) := each move rest after
      (moved :: others, final)

/-- The first instant at which one of several connections can move on. -/
def firstWake (backend : Backend α φ σ) (gateway : Gateway α)
    (connections : List (Connection φ)) : Option Instant :=
  connections.foldr (fun connection found =>
    Pending.earlier (connection.wake backend gateway) found) none

/-- Move connections on up to `limit`, in at most `turns` jumps of the clock. -/
def advance (backend : Backend α φ σ) (gateway : Gateway α) (limit : Instant) :
    Nat → List (Connection φ) → World σ → List (Connection φ) × World σ
  | 0, connections, world => (connections, world)
  | turns + 1, connections, world =>
      let (moved, after) := each (poll backend gateway) connections world
      match firstWake backend gateway moved with
      | none => (moved, after)
      | some instant =>
          if instant ≤ limit then
            advance backend gateway limit turns moved (after.reach instant)
          else
            (moved, after)

end Connection

end FunctionGateway
