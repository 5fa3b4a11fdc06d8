import FunctionGateway.Gateway
import FunctionGateway.Proofs.Service.Recording

/-!
# Sessions at a router

A session is a router with the traffic that goes through it.  Requests are dispatched as they
come; further routes may be added at any time between them.
-/

namespace FunctionGateway

open FunctionGateway.Http
open FunctionGateway.Metrics
open FunctionGateway.Routing

variable {α φ σ : Type}

/-! ## Dispatching as a call -/

/-- The service that answers a request, and the request as that service sees it. -/
def target (router : Router (Service α)) (request : Request) : Service α × Request :=
  match router.resolve request with
  | .found service params => (service, request.withParams params)
  | .methodNotAllowed allowed => (.answer (methodNotAllowed allowed), request)
  | .notFound => (.answer notFound, request)

theorem dispatch_eq_call (backend : Backend α φ σ) (router : Router (Service α))
    (request : Request) (world : World σ) :
    dispatch backend router request world =
      (target router request).1.call backend (target router request).2 world := by
  rw [dispatch, target]
  cases router.resolve request <;> rfl

/-! ## Sessions -/

structure Session (α φ σ : Type) where
  router : Router (Service α)
  traffic : Traffic φ σ

namespace Session

inductive Event (α : Type) where
  | route (spec : RouteSpec) (service : Service α)
  | request (request : Request)
  | poll (index : Nat)
  | drop (index : Nat)
  | reach (instant : Instant)
  | read (template : String)

/-- A router before its first request. -/
def start (router : Router (Service α)) (now : Instant) (shared : σ) : Session α φ σ :=
  ⟨router, Traffic.start now shared⟩

def step (backend : Backend α φ σ) (session : Session α φ σ) : Event α → Session α φ σ
  | .route spec service => { session with router := (session.router.route spec service).1 }
  | .request request =>
      let (service, seen) := target session.router request
      { session with traffic := session.traffic.call backend service seen }
  | .poll index => { session with traffic := session.traffic.poll backend index }
  | .drop index => { session with traffic := session.traffic.drop backend index }
  | .reach instant =>
      { session with traffic := session.traffic.step backend (.reach instant) }
  | .read template =>
      { session with traffic := session.traffic.step backend (.read template) }

def run (backend : Backend α φ σ) (session : Session α φ σ) (events : List (Event α)) :
    Session α φ σ :=
  events.foldl (step backend) session

end Session

/-- The calls that handlers have received in a recorded session. -/
def Session.calls (session : Session α φ (σ × Calls α)) : Calls α :=
  session.traffic.world.shared.2

end FunctionGateway
