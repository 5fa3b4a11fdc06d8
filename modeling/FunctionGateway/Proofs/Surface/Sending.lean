import FunctionGateway.Proofs.Metrics.Conservation
import FunctionGateway.Proofs.Surface.Documented
import FunctionGateway.Proofs.Surface.Served
import FunctionGateway.Proofs.Surface.Session

/-!
# Where a bound router sends requests

On a router that was bound every service of the surface stands behind one instrument, under the
template of its route; the exposition, and the answers that the router gives by itself, stand
behind none.  So the template a request counts under is the one of the entry it asks for.
-/

namespace FunctionGateway

open FunctionGateway.Http
open FunctionGateway.Metrics
open FunctionGateway.Routing

variable {α φ σ : Type}

/-- The template of the instrument round a service, if the outermost layer is one. -/
def Service.counter? : Service α → Option String
  | .counted template _ => some template
  | _ => none

/-- The template under which a request counts, if it is sent to an instrument. -/
def sentTo (router : Router (Service α)) (request : Request) : Option String :=
  (target router request).1.counter?

namespace Surface

variable {capabilities : CapabilitySet (Service α)} {deadline : Option Duration}
  {auth : Option Credentials} {router : Router (Service α)}

/-! ## What was bound -/

theorem contribution_ne_missing_of_bindRows {changed : Router (Service α)}
    {rows : List SurfaceRow}
    (bound : bindRows capabilities deadline auth router rows = (changed, none)) :
    ∀ row ∈ rows, contribution capabilities row ≠ .missing := by
  induction rows generalizing router with
  | nil => exact fun row member => absurd member List.not_mem_nil
  | cons first rest inductionHypothesis =>
      obtain ⟨next, step, others⟩ := bindRows_cons_eq_none_iff.mp bound
      exact List.forall_mem_cons.mpr ⟨step.not_missing, inductionHypothesis others⟩

theorem exists_row_of_required :
    ∀ capability ∈ Capability.required,
      ∃ row ∈ table, row.capability = capability ∧ row.absent = .fail := by
  decide

/-- Only a set with all required capabilities binds. -/
theorem complete_of_bind
    (bound : bind Router.empty capabilities deadline auth = (router, none)) :
    ∀ capability ∈ Capability.required, (capabilities.get? capability).isSome = true := by
  intro capability required
  obtain ⟨row, listed, rfl, absent⟩ := exists_row_of_required capability required
  obtain ⟨changed, rows, _⟩ := bind_eq_none_iff_rows.mp bound
  have present := contribution_ne_missing_of_bindRows rows row listed
  cases filled : capabilities.get? row.capability with
  | some slot => rfl
  | none =>
      rw [contribution, filled, absent] at present
      exact absurd rfl present

/-- A router that was bound leads every request where the document says. -/
theorem resolve_iff_answers
    (bound : bind Router.empty capabilities deadline auth = (router, none)) (request : Request)
    (answer : Router.Lookup (Service α)) :
    router.resolve request = answer ↔
      Answers capabilities deadline auth request.method (Text.Percent.decode request.path)
        answer := by
  obtain ⟨same, rebound, settles⟩ := bind_eq_none (complete_of_bind bound) deadline auth
  obtain rfl : router = same := (Prod.mk.inj (bound.symm.trans rebound)).1
  exact (settles request.method (Text.Percent.decode request.path) answer).trans
    (settled_iff_answers deadline auth _ _ answer)

/-! ## Instruments of the surface -/

/-- A service that is cut off at a deadline, if there is one. -/
def within (deadline : Option Duration) (service : Service α) : Service α :=
  match deadline with
  | some limit => Layer.deadline limit service
  | none => service

/-- A service behind a guard, if there are credentials to ask for. -/
def behind (auth : Option Credentials) (service : Service α) : Service α :=
  match auth with
  | some credentials => .guarded credentials service
  | none => service

theorem layers_apply_eq (template : String) (deadline : Option Duration)
    (auth : Option Credentials) (slot : Service α) :
    (layers template deadline auth).apply slot =
      .counted template (within deadline (behind auth slot)) := by
  cases deadline <;> cases auth <;> rfl

namespace Entry

/-- What stands behind the instrument of an entry. -/
def inside (deadline : Option Duration) (auth : Option Credentials) : Entry α → Service α
  | slot row own => within deadline (behind (if row.requiresAuth then auth else none) own)
  | fallback => within deadline (.answer notImplemented)
  | exposition => .exposition

end Entry

/-- A request for an entry is handed to the service of the entry. -/
theorem target_of_applies
    (bound : bind Router.empty capabilities deadline auth = (router, none)) {request : Request}
    {entry : Entry α} {name rest : Option String}
    (applies : Applies capabilities request.method (Text.Percent.decode request.path) entry name
      rest) :
    target router request =
      (entry.service deadline auth, request.withParams (PathForm.shown name rest)) := by
  rw [target, (resolve_iff_answers bound request _).mpr (Answers.found entry name rest applies)]

end Surface

end FunctionGateway
