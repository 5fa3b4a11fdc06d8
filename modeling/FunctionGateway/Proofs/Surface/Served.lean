import FunctionGateway.Proofs.Http.Wording
import FunctionGateway.Proofs.Surface.Parallel

/-!
# The surface with its guards and without them

Binding the surface with credentials and without them goes in step: it ends alike, and at
every place of the two routers the services differ by a guard of that very place, or not
at all.  A guard passes on what it accepts as if it were not there, and turns
everything else away before any handler has a part in it.
-/

namespace FunctionGateway

open FunctionGateway.Http
open FunctionGateway.Metrics
open FunctionGateway.Routing

variable {α φ σ : Type}

/-! ## The services of the surface -/

/-- The services of one place in two routers, one with the guards and one without, as binding
the surface and further routes puts them there. -/
inductive Surface.Served (capabilities : CapabilitySet (Service α)) (limit : Duration)
    (credentials : Credentials) (further : Service α → Prop) : Service α → Service α → Prop
  | row (row : SurfaceRow) (slot : Service α) :
      row ∈ Surface.table →
      capabilities.get? row.capability = some slot →
      Served capabilities limit credentials further
        (row.service (some limit) (some credentials) slot) (row.service (some limit) none slot)
  | fallback :
      Served capabilities limit credentials further
        (Surface.fallback (some limit)) (Surface.fallback (some limit))
  | exposition :
      Served capabilities limit credentials further .exposition .exposition
  | further (service : Service α) :
      further service →
      Served capabilities limit credentials further service service

/-- What layers do round a service before it is called: they count it and set it a
limit. -/
theorem Surface.layers_apply (template : String) (limit : Duration)
    (auth : Option Credentials) (slot : Service α) :
    (Surface.layers template (some limit) auth).apply slot =
      .counted template
        (Layer.deadline limit
          (match auth with
            | some credentials => .guarded credentials slot
            | none => slot)) := by
  cases auth <;> rfl

theorem SurfaceRow.service_of_open {row : SurfaceRow} (notGuarded : row.requiresAuth = false)
    (deadline : Option Duration) (auth : Option Credentials) (slot : Service α) :
    row.service deadline auth slot = row.service deadline none slot := by
  simp [SurfaceRow.service, notGuarded]

/-! ## Calls through a guard -/

theorem Layer.call_deadline (backend : Backend α φ σ) (limit : Duration)
    {first second : Service α} {request other : Request} {world : World σ}
    (same : first.call backend request world = second.call backend other world) :
    (Layer.deadline limit first).call backend request world =
      (Layer.deadline limit second).call backend other world := by
  by_cases zero : limit.isZero = true
  · simpa [Layer.deadline, zero] using same
  · simp [Layer.deadline, zero, Service.call, same]

theorem Layer.entered_deadline (limit : Duration) (service : Service α) (request : Request) :
    (Layer.deadline limit service).entered request = service.entered request := by
  by_cases zero : limit.isZero = true <;> simp [Layer.deadline, zero, Service.entered]

/-- For a request that is accepted the guard of a row might as well not be there. -/
theorem SurfaceRow.callAlike_of_accepted (backend : Backend α φ σ) (row : SurfaceRow)
    (limit : Duration) (credentials : Credentials) (slot : Service α) {request : Request}
    (accepted : credentials.accept request = true) :
    Service.CallAlike backend request (row.service (some limit) (some credentials) slot)
      (row.service (some limit) none slot) := by
  cases protection : row.requiresAuth with
  | false =>
      rw [row.service_of_open protection]
      exact ⟨rfl, fun _ => rfl⟩
  | true =>
      simp only [SurfaceRow.service, protection, if_true, ite_self, Surface.layers_apply]
      constructor
      · simp only [Service.entered, Layer.entered_deadline, accepted, if_true]
      · intro world
        have passed : ∀ later : World σ, (Service.guarded credentials slot).call backend request
            later = slot.call backend request later := by
          intro later
          simp only [Service.call, accepted, if_true]
        simp only [Service.call, Layer.call_deadline backend limit (passed _)]

/-- A call that came to nothing but the refusal of a request without credentials: no handler has
any part in it, and the first poll shows the refusal, whenever it comes. -/
def TurnedAway (backend : Backend α φ σ) (world : World σ) (begun : Pending φ × World σ) :
    Prop :=
  begun.2.shared = world.shared ∧
    ∃ refusal : Response, refusal.IsRefusal ∧
      ∀ later : World σ, ∃ ended,
        begun.1.poll backend later = (.ready refusal, ended) ∧ ended.shared = later.shared

/-- A guarded row turns away a request that is not accepted. -/
theorem SurfaceRow.call_of_rejected (backend : Backend α φ σ) {row : SurfaceRow}
    (protection : row.requiresAuth = true) (limit : Duration) (credentials : Credentials)
    (slot : Service α) {request : Request}
    (rejected : credentials.accept request = false) (world : World σ) :
    TurnedAway backend world
      ((row.service (some limit) (some credentials) slot).call backend request world) := by
  simp only [SurfaceRow.service, protection, if_true, Surface.layers_apply]
  by_cases zero : limit.isZero = true
  · simp only [Layer.deadline, zero, if_true, Service.call, rejected, Bool.false_eq_true,
      if_false]
    exact ⟨rfl, unauthorized, unauthorized_isRefusal, fun later => ⟨_, rfl, rfl⟩⟩
  · simp only [Layer.deadline, zero, Bool.false_eq_true, if_false, Service.call, rejected]
    exact ⟨rfl, unauthorized, unauthorized_isRefusal, fun later => ⟨_, rfl, rfl⟩⟩

/-- Matching services do the same with a request that is accepted. -/
theorem Surface.Served.callAlike_of_accepted {capabilities : CapabilitySet (Service α)}
    {limit : Duration} {credentials : Credentials} {further : Service α → Prop}
    {left right : Service α}
    (served : Surface.Served capabilities limit credentials further left right)
    (backend : Backend α φ σ) {request : Request}
    (accepted : credentials.accept request = true) :
    Service.CallAlike backend request left right := by
  cases served with
  | row row slot _ _ => exact row.callAlike_of_accepted backend limit credentials slot accepted
  | fallback => exact ⟨rfl, fun _ => rfl⟩
  | exposition => exact ⟨rfl, fun _ => rfl⟩
  | further service _ => exact ⟨rfl, fun _ => rfl⟩

/-- The services of the surface that no guard stands in front of, each with what its
layers go round. -/
inductive Surface.Unguarded (capabilities : CapabilitySet (Service α)) (limit : Duration)
    (credentials : Credentials) : Service α → Service α → Prop
  | row (row : SurfaceRow) (slot : Service α) :
      row ∈ Surface.table →
      capabilities.get? row.capability = some slot →
      row.capability ∉ Surface.authRequired →
      Unguarded capabilities limit credentials
        (row.service (some limit) (some credentials) slot) slot
  | fallback :
      Unguarded capabilities limit credentials (Surface.fallback (some limit))
        (.answer Surface.notImplemented)
  | exposition :
      Unguarded capabilities limit credentials .exposition .exposition

theorem SurfaceRow.requiresAuth_eq_false {row : SurfaceRow}
    (notListed : row.capability ∉ Surface.authRequired) : row.requiresAuth = false := by
  rw [SurfaceRow.requiresAuth, ← Bool.not_eq_true, List.contains_iff_mem]
  exact notListed

theorem Surface.exists_unguarded_namespace :
    ∃ row ∈ Surface.table, row.requiresAuth = false ∧
      row.route.template = Surface.namespacePath := by
  decide

theorem Surface.template_ne_of_guarded :
    ∀ row ∈ Surface.table, row.requiresAuth = true →
      ∀ other ∈ Surface.table, other.requiresAuth = false →
        other.route.template ≠ row.route.template := by
  decide

theorem Surface.Unguarded.cases {capabilities : CapabilitySet (Service α)} {limit : Duration}
    {credentials : Credentials} {service inner : Service α}
    (unguarded : Surface.Unguarded capabilities limit credentials service inner) :
    (∃ row ∈ Surface.table, row.requiresAuth = false ∧
        service = .counted row.route.template (Layer.deadline limit inner)) ∨
      service = .exposition ∧ inner = .exposition := by
  cases unguarded with
  | row row slot listed filled notListed =>
      have protection := SurfaceRow.requiresAuth_eq_false notListed
      refine Or.inl ⟨row, listed, protection, ?_⟩
      rw [row.service_of_open protection]
      simp only [SurfaceRow.service, ite_self, Surface.layers_apply]
  | fallback =>
      obtain ⟨row, listed, protection, template⟩ := Surface.exists_unguarded_namespace
      refine Or.inl ⟨row, listed, protection, ?_⟩
      rw [template]
      exact Surface.layers_apply Surface.namespacePath limit none _
  | exposition => exact Or.inr ⟨rfl, rfl⟩

/-- Two requests that what is inside does not tell apart are treated alike, though one of them
may be accepted and the other one not. -/
theorem Surface.Unguarded.call_eq {capabilities : CapabilitySet (Service α)} {limit : Duration}
    {credentials : Credentials} {service inner : Service α}
    (unguarded : Surface.Unguarded capabilities limit credentials service inner)
    (backend : Backend α φ σ) {request other : Request} (method : request.method = other.method)
    (alike : ∀ world : World σ,
      inner.call backend request world = inner.call backend other world)
    (world : World σ) :
    service.call backend request world = service.call backend other world := by
  rcases unguarded.cases with ⟨row, _, _, rfl⟩ | ⟨rfl, rfl⟩
  · simp only [Service.call, Layer.call_deadline backend limit (alike _), method]
  · exact alike world

/-- Where no guard stands in front of a service, the surface without authentication has the
same service. -/
theorem Surface.Served.eq_of_unguarded {capabilities : CapabilitySet (Service α)}
    {limit : Duration} {credentials : Credentials} {further : Service α → Prop}
    {left right inner : Service α}
    (served : Surface.Served capabilities limit credentials further left right)
    (unguarded : Surface.Unguarded capabilities limit credentials left inner) :
    right = left := by
  cases served with
  | row row slot listed filled =>
      cases protection : row.requiresAuth with
      | false => exact (row.service_of_open protection (some limit) (some credentials) slot).symm
      | true =>
          -- No template of the surface is used both with a guard and without one.
          rcases unguarded.cases with ⟨other, listedToo, noProtection, same⟩ | ⟨same, _⟩
          · rw [SurfaceRow.service, Surface.layers_apply, Service.counted.injEq] at same
            exact absurd same.1.symm
              (Surface.template_ne_of_guarded row listed protection other listedToo noProtection)
          · rw [SurfaceRow.service, Surface.layers_apply] at same
            exact nomatch same
  | fallback => rfl
  | exposition => rfl
  | further service _ => rfl

/-! ## Who is called -/

theorem Surface.core?_layers (template : String) (limit : Duration)
    (auth : Option Credentials) (slot : Service α) :
    ((Surface.layers template (some limit) auth).apply slot).core? = slot.core? := by
  rw [Surface.layers_apply, Service.core?]
  by_cases zero : limit.isZero = true
  · cases auth <;> simp [Layer.deadline, zero, Service.core?]
  · cases auth <;> simp [Layer.deadline, zero, Service.core?]

/-- A handler that is served behind guards only is called only with requests that are
accepted. -/
theorem Surface.Served.accept_of_called {capabilities : CapabilitySet (Service α)}
    {limit : Duration} {credentials : Credentials} {further : Service α → Prop}
    {left right : Service α}
    (served : Surface.Served capabilities limit credentials further left right)
    {handler : α}
    (inSlots : ∀ capability slot, capabilities.get? capability = some slot →
      slot.core? = some handler → capability ∈ Surface.authRequired)
    (notFurther : ∀ service, further service → service.core? ≠ some handler)
    (backend : Backend α φ σ) {request seen : Request} {world : World (σ × Calls α)}
    (called : (handler, seen) ∈ (left.call backend.recording request world).2.shared.2)
    (fresh : (handler, seen) ∉ world.shared.2) :
    credentials.accept seen = true := by
  rcases Backend.calls_call backend left request world with same | ⟨own, core, grown⟩
  · rw [same] at called
    exact absurd called fresh
  · rw [grown] at called
    rcases List.mem_cons.mp called with new | earlier
    · obtain ⟨rfl, rfl⟩ := Prod.mk.inj new
      cases served with
      | row row slot listed filled =>
          rw [SurfaceRow.service, Surface.core?_layers] at core
          have protection : row.requiresAuth = true :=
            List.contains_iff_mem.mpr (inSlots row.capability slot filled core)
          cases verdict : credentials.accept seen with
          | true => rfl
          | false =>
              have untouched := (row.call_of_rejected backend.recording protection limit
                credentials slot verdict world).1
              rw [congrArg Prod.snd untouched] at grown
              exact absurd (congrArg List.length grown) (by simp)
      | fallback =>
          rw [Surface.fallback, Surface.core?_layers] at core
          exact nomatch core
      | exposition => exact nomatch core
      | further service known => exact absurd core (notFurther _ known)
    · exact absurd earlier fresh

/-! ## Binding in step -/

namespace Surface

variable {capabilities : CapabilitySet (Service α)} {limit : Duration}
  {credentials : Credentials} {further : Service α → Prop}

/-- What a row contributes is served with its guard in one router and without it in the
other. -/
theorem served_of_contribution {row : SurfaceRow} (listed : row ∈ table)
    {spec : RouteSpec} {service : Service α} {guarded : Bool}
    (bound : contribution capabilities row = .bound spec service guarded) :
    Served capabilities limit credentials further
      ((layers spec.template (some limit) (if guarded then some credentials else none)).apply
        service)
      ((layers spec.template (some limit) none).apply service) := by
  cases filled : capabilities.get? row.capability with
  | some slot =>
      simp only [contribution, filled, Contribution.bound.injEq] at bound
      obtain ⟨rfl, rfl, rfl⟩ := bound
      have own : Served capabilities limit credentials further
          (row.service (some limit) (some credentials) slot) (row.service (some limit) none slot) :=
        Served.row row slot listed filled
      simpa only [SurfaceRow.service, ite_self] using own
  | none =>
      cases empty : row.absent with
      | fail => simp [contribution, filled, empty] at bound
      | skip => simp [contribution, filled, empty] at bound
      | notImplemented =>
          simp only [contribution, filled, empty, Contribution.bound.injEq] at bound
          obtain ⟨rfl, rfl, rfl⟩ := bound
          have place := template_of_notImplemented row listed empty
          change Served capabilities limit credentials further
            ((layers row.route.template (some limit) none).apply (.answer notImplemented))
            ((layers row.route.template (some limit) none).apply (.answer notImplemented))
          rw [place]
          exact Served.fallback

/-- A surface is bound with the guards exactly if it is without them, and then the two
differ by the guards alone. -/
theorem bind_related :
    Router.Related (Served capabilities limit credentials further)
        (bind Router.empty capabilities (some limit) (some credentials)).1
        (bind Router.empty capabilities (some limit) none).1 ∧
      (bind Router.empty capabilities (some limit) (some credentials)).2 =
        (bind Router.empty capabilities (some limit) none).2 := by
  refine bind_parallel ⟨fun row listed spec service guarded bound => ?_, Served.exposition⟩
  rw [ite_self]
  exact served_of_contribution listed bound

end Surface

end FunctionGateway
