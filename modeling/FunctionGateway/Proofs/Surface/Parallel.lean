import FunctionGateway.Proofs.Routing.Relabel
import FunctionGateway.Proofs.Surface.Binding
import FunctionGateway.Proofs.Surface.Session

/-!
# Two gateways in parallel

One set of capabilities is bound twice, with different guards, and the two routers then go
through the same events.  Whatever relation the layers of every row keep is kept between all the
services of the two routers.  As long as related services deal alike with the requests that
come, the two traffics are one and the same.
-/

namespace FunctionGateway

open FunctionGateway.Http
open FunctionGateway.Routing

variable {α φ σ : Type} {relation : Service α → Service α → Prop}

/-- Two services deal alike with a request: they enter the same instruments, and whatever
happened before, the same becomes of the call. -/
def Service.CallAlike (backend : Backend α φ σ) (request : Request)
    (left right : Service α) : Prop :=
  left.entered request = right.entered request ∧
    ∀ world, left.call backend request world = right.call backend request world

namespace Surface

/-! ## Binding twice -/

variable {capabilities : CapabilitySet (Service α)} {deadline : Option Duration}
  {first second : Option Credentials}

/-- The layers of every row, with one guard and with another, keep a relation, and so does the
exposition. -/
structure LayersKeep (relation : Service α → Service α → Prop)
    (capabilities : CapabilitySet (Service α)) (deadline : Option Duration)
    (first second : Option Credentials) : Prop where
  rows : ∀ row ∈ table, ∀ spec service guarded,
    contribution capabilities row = .bound spec service guarded →
      relation ((layers spec.template deadline (if guarded then first else none)).apply service)
        ((layers spec.template deadline (if guarded then second else none)).apply service)
  exposition : relation .exposition .exposition

/-- Binding rows with either guard ends alike, with related services everywhere. -/
theorem bindRows_parallel (keep : LayersKeep relation capabilities deadline first second)
    {left right : Router (Service α)} (related : Router.Related relation left right)
    (rows : List SurfaceRow) (listed : ∀ row ∈ rows, row ∈ table) :
    Router.Related relation (bindRows capabilities deadline first left rows).1
        (bindRows capabilities deadline second right rows).1 ∧
      (bindRows capabilities deadline first left rows).2 =
        (bindRows capabilities deadline second right rows).2 := by
  induction rows generalizing left right with
  | nil => exact ⟨related, rfl⟩
  | cons row rest inductionHypothesis =>
      have others : ∀ later ∈ rest, later ∈ table :=
        fun later member => listed later (List.mem_cons_of_mem row member)
      cases contributed : contribution capabilities row with
      | missing =>
          rw [bindRows_of_missing _ _ _ _ _ contributed,
            bindRows_of_missing _ _ _ _ _ contributed]
          exact ⟨related, rfl⟩
      | withheld =>
          rw [bindRows_of_withheld _ _ _ _ _ contributed,
            bindRows_of_withheld _ _ _ _ _ contributed]
          exact inductionHypothesis related others
      | bound spec service guarded =>
          rw [bindRows_of_bound _ _ _ _ _ contributed,
            bindRows_of_bound _ _ _ _ _ contributed]
          obtain ⟨step, same⟩ := related.route spec
            (keep.rows row (listed row List.mem_cons_self) spec service guarded contributed)
          generalize left.route spec _ = onLeft at step same ⊢
          generalize right.route spec _ = onRight at step same ⊢
          obtain ⟨left, fault⟩ := onLeft
          obtain ⟨right, fault'⟩ := onRight
          dsimp only at step same
          subst same
          cases fault with
          | none => exact inductionHypothesis step others
          | some fault => exact ⟨step, rfl⟩

theorem bind_parallel (keep : LayersKeep relation capabilities deadline first second) :
    Router.Related relation (bind Router.empty capabilities deadline first).1
        (bind Router.empty capabilities deadline second).1 ∧
      (bind Router.empty capabilities deadline first).2 =
        (bind Router.empty capabilities deadline second).2 := by
  obtain ⟨step, same⟩ := bindRows_parallel keep Router.related_empty table
    (fun _ member => member)
  simp only [bind]
  generalize bindRows capabilities deadline first Router.empty table = onLeft at step same ⊢
  generalize bindRows capabilities deadline second Router.empty table = onRight at step same ⊢
  obtain ⟨left, fault⟩ := onLeft
  obtain ⟨right, fault'⟩ := onRight
  dsimp only at step same
  subst same
  cases fault with
  | some fault => exact ⟨step, rfl⟩
  | none =>
      obtain ⟨last, agree⟩ := step.route metricsRoute keep.exposition
      exact ⟨last, congrArg (Option.map BindFault.route) agree⟩

end Surface

namespace Session

/-! ## The same events twice -/

theorem router_step_parallel (backend : Backend α φ σ) {left right : Session α φ σ}
    (related : Router.Related relation left.router right.router) {event : Event α}
    (added : ∀ spec service, event = .route spec service → relation service service) :
    Router.Related relation (left.step backend event).router
      (right.step backend event).router := by
  cases event with
  | route spec service => exact (related.route spec (added spec service rfl)).1
  | request request => exact related
  | poll index => exact related
  | drop index => exact related
  | reach instant => exact related
  | read template => exact related

/-- Routers in step stay so while the same routes are added to both. -/
theorem router_run_parallel (backend : Backend α φ σ) {left right : Session α φ σ}
    (related : Router.Related relation left.router right.router) {events : List (Event α)}
    (added : ∀ spec service, Event.route spec service ∈ events → relation service service) :
    Router.Related relation (left.run backend events).router
      (right.run backend events).router := by
  induction events generalizing left right with
  | nil => exact related
  | cons event rest inductionHypothesis =>
      refine inductionHypothesis (router_step_parallel backend related ?_)
        (fun spec service member => added spec service (List.mem_cons_of_mem event member))
      rintro spec service rfl
      exact added spec service List.mem_cons_self

/-- One event moves both traffics alike if related services deal alike with its request. -/
theorem traffic_step_parallel (backend : Backend α φ σ) {left right : Session α φ σ}
    (related : Router.Related relation left.router right.router)
    (same : left.traffic = right.traffic) {event : Event α}
    (alike : ∀ request, event = .request request → ∀ params first second,
      relation first second →
        Service.CallAlike backend (request.withParams params) first second) :
    (left.step backend event).traffic = (right.step backend event).traffic := by
  cases event with
  | route spec service => exact same
  | poll index => exact congrArg (Traffic.poll backend index) same
  | drop index => exact congrArg (Traffic.drop backend index) same
  | reach instant => exact congrArg (Traffic.step backend · (.reach instant)) same
  | read template => exact congrArg (Traffic.step backend · (.read template)) same
  | request request =>
      simp only [step, target, same]
      rcases related.resolve request with
        ⟨first, second, params, own, onLeft, onRight⟩ | ⟨allowed, onLeft, onRight⟩ |
          ⟨onLeft, onRight⟩
      · obtain ⟨entered, called⟩ := alike request rfl params first second own
        simp only [onLeft, onRight, Traffic.call, called, entered]
      · simp only [onLeft, onRight]
      · simp only [onLeft, onRight]

theorem traffic_run_parallel (backend : Backend α φ σ) {left right : Session α φ σ}
    (related : Router.Related relation left.router right.router)
    (same : left.traffic = right.traffic) {events : List (Event α)}
    (added : ∀ spec service, Event.route spec service ∈ events → relation service service)
    (alike : ∀ request, Event.request request ∈ events → ∀ params first second,
      relation first second →
        Service.CallAlike backend (request.withParams params) first second) :
    (left.run backend events).traffic = (right.run backend events).traffic := by
  induction events generalizing left right with
  | nil => exact same
  | cons event rest inductionHypothesis =>
      refine inductionHypothesis (router_step_parallel backend related ?_)
        (traffic_step_parallel backend related same ?_)
        (fun spec service member => added spec service (List.mem_cons_of_mem event member))
        (fun request member => alike request (List.mem_cons_of_mem event member))
      · rintro spec service rfl
        exact added spec service List.mem_cons_self
      · rintro request rfl
        exact alike request List.mem_cons_self

end Session

end FunctionGateway
