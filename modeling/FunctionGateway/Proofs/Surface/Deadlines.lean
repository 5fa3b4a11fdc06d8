import FunctionGateway.Proofs.Service.Concurrent
import FunctionGateway.Proofs.Surface.Served
import FunctionGateway.Gateway

/-!
# The write deadline of capability routes

Whatever routes are added to a gateway, every handler that fills a slot stays behind the write
deadline of the gateway: the outcome of the handler is cut off there, unless a guard has
turned the request away before.
-/

namespace FunctionGateway

open FunctionGateway.Http
open FunctionGateway.Routing

variable {α φ σ : Type}

/-! ## What is served where -/

/-- A service that binding the surface and further routes puts into a router. -/
inductive Surface.Placed (capabilities : CapabilitySet (Service α)) (limit : Duration)
    (auth : Option Credentials) (further : Service α → Prop) : Service α → Prop
  | row (row : SurfaceRow) (slot : Service α) :
      row ∈ Surface.table →
      capabilities.get? row.capability = some slot →
      Placed capabilities limit auth further (row.service (some limit) auth slot)
  | fallback : Placed capabilities limit auth further (Surface.fallback (some limit))
  | exposition : Placed capabilities limit auth further .exposition
  | further (service : Service α) :
      further service →
      Placed capabilities limit auth further service

/-- A gateway with further routes, as far as they can be added. -/
def Gateway.extend (gateway : Gateway α) (additions : List (RouteSpec × Service α)) : Gateway α :=
  additions.foldl (fun extended addition => (extended.route addition.1 addition.2).1) gateway

theorem Surface.Served.placed {capabilities : CapabilitySet (Service α)} {limit : Duration}
    {credentials : Credentials} {further : Service α → Prop} {left right : Service α}
    (served : Surface.Served capabilities limit credentials further left right) :
    Surface.Placed capabilities limit (some credentials) further left ∧
      Surface.Placed capabilities limit none further right := by
  cases served with
  | row row slot listed filled => exact ⟨.row row slot listed filled, .row row slot listed filled⟩
  | fallback => exact ⟨.fallback, .fallback⟩
  | exposition => exact ⟨.exposition, .exposition⟩
  | further service known => exact ⟨.further left known, .further left known⟩

/-- What becomes of an outcome behind a deadline; a deadline of zero is none. -/
def Outcome.behind (limit : Duration) (outcome : Outcome) : Outcome :=
  if limit.isZero then outcome else outcome.cut limit.nanos

theorem Layer.yields_deadline {backend : Backend α φ σ} {limit : Duration} {inner : Service α}
    {request : Request} {outcome : Outcome}
    (yields : (Layer.deadline limit inner).Yields backend request outcome) :
    ∃ own, inner.Yields backend request own ∧ outcome = own.behind limit := by
  by_cases zero : limit.isZero = true
  · rw [Layer.deadline, if_pos zero] at yields
    exact ⟨outcome, yields, (if_pos zero).symm⟩
  · rw [Layer.deadline, if_neg zero] at yields
    cases yields with
    | bounded _ _ own inside => exact ⟨own, inside, (if_neg zero).symm⟩

/-- The handler at a row is cut off at the write deadline, and a guard that rejects answers at
once. -/
theorem SurfaceRow.yields_service {backend : Backend α φ σ} {row : SurfaceRow} {limit : Duration}
    {auth : Option Credentials} {slot : Service α} {request : Request} {outcome : Outcome}
    (yields : (row.service (some limit) auth slot).Yields backend request outcome) :
    (∃ credentials, auth = some credentials ∧ row.requiresAuth = true ∧
        credentials.accept request = false ∧ outcome = some (0, unauthorized)) ∨
      ∃ own, slot.Yields backend request own ∧ outcome = own.behind limit := by
  rw [SurfaceRow.service, Surface.layers_apply] at yields
  cases yields with
  | counted _ _ _ inside =>
      obtain ⟨own, inner, rfl⟩ := Layer.yields_deadline inside
      cases protection : row.requiresAuth with
      | false =>
          rw [protection] at inner
          exact Or.inr ⟨own, inner, rfl⟩
      | true =>
          rw [protection, if_pos rfl] at inner
          cases auth with
          | none => exact Or.inr ⟨own, inner, rfl⟩
          | some credentials =>
              cases inner with
              | rejected _ _ refused =>
                  refine Or.inl ⟨credentials, rfl, rfl, refused, ?_⟩
                  rw [Outcome.behind]
                  split
                  · rfl
                  · exact Outcome.cut_of_within (Outcome.within_of_le (Nat.zero_le _))
              | accepted _ _ _ _ inside => exact Or.inr ⟨own, inside, rfl⟩

end FunctionGateway
