import FunctionGateway.Proofs.Surface.Documented
import FunctionGateway.Proofs.Surface.Served

/-!
# What credentials show of themselves

Two gateways that differ in their credentials alone are told apart by a request that one of them
accepts and the other does not, and by nothing else.  The argument runs the two in parallel:
at every place of the two routers the services are alike, but for requests of that kind.
-/

namespace FunctionGateway

open FunctionGateway.Http
open FunctionGateway.Metrics
open FunctionGateway.Routing
open FunctionGateway.Text

variable {α φ σ : Type}

/-! ## The two guards of a row -/

/-- Two services that deal alike with every request of which two guards say the same. -/
def Service.AlikeUnless (first second : Credentials) (left right : Service α) : Prop :=
  ∀ {φ σ : Type} (backend : Backend α φ σ) (request : Request),
    first.accept request = second.accept request → Service.CallAlike backend request left right

theorem Service.AlikeUnless.refl (first second : Credentials) (service : Service α) :
    Service.AlikeUnless first second service service :=
  fun _ _ _ => ⟨rfl, fun _ => rfl⟩

theorem Service.guarded_alike (first second : Credentials) (inner : Service α) :
    Service.AlikeUnless first second (.guarded first inner) (.guarded second inner) := by
  intro φ σ backend request verdict
  constructor
  · rw [Service.entered, Service.entered, verdict]
  · intro world
    rw [Service.call, Service.call, verdict]

/-- The layers of a row show of the guard in them what the guard itself shows. -/
theorem Surface.layers_alike (first second : Credentials) (template : String) (limit : Duration)
    (guarded : Bool) (service : Service α) :
    Service.AlikeUnless first second
      ((layers template (some limit) (if guarded then some first else none)).apply service)
      ((layers template (some limit) (if guarded then some second else none)).apply service) := by
  cases guarded with
  | false => exact Service.AlikeUnless.refl first second _
  | true =>
      intro φ σ backend request verdict
      obtain ⟨entered, called⟩ := service.guarded_alike first second backend request verdict
      simp only [if_true, Surface.layers_apply]
      constructor
      · simp only [Service.entered, Layer.entered_deadline, verdict]
      · intro world
        simp only [Service.call, Layer.call_deadline backend limit (called _)]

theorem Surface.layersKeep_alike (first second : Credentials)
    (capabilities : CapabilitySet (Service α)) (limit : Duration) (enabled : Bool) :
    LayersKeep (Service.AlikeUnless first second) capabilities (some limit)
      (if enabled then some first else none) (if enabled then some second else none) where
  rows := by
    intro row _ spec service guarded _
    cases enabled with
    | false => exact Service.AlikeUnless.refl first second _
    | true => exact Surface.layers_alike first second spec.template limit guarded service
  exposition := Service.AlikeUnless.refl first second _

/-! ## Sessions at the two gateways -/

namespace Session

/-- Two sessions that show nothing by which they could be told apart. -/
structure Indistinct (left right : Session α φ (σ × Calls α)) : Prop where
  /-- The answers that were given and those under way, the calls that handlers received and
  all that handlers share, and the ledger with its counts and gauges. -/
  traffic : left.traffic = right.traffic
  /-- A further route is taken by both, or refused by both with the same fault. -/
  routes : ∀ spec service,
    (left.router.route spec service).2 = (right.router.route spec service).2

/-- Routers whose services are alike give sessions that are, as long as both guards say the
same of every request. -/
theorem indistinct_run (backend : Backend α φ σ) {first second : Credentials}
    {left right : Router (Service α)}
    (related : Router.Related (Service.AlikeUnless first second) left right) (now : Instant)
    (shared : σ) {events : List (Event α)}
    (verdicts : ∀ request, Event.request request ∈ events →
      first.accept request = second.accept request) :
    Indistinct ((start left now (shared, [])).run backend.recording events)
      ((start right now (shared, [])).run backend.recording events) := by
  have begun : Router.Related (Service.AlikeUnless first second)
      (start left now (shared, []) : Session α φ (σ × Calls α)).router
      (start right now (shared, []) : Session α φ (σ × Calls α)).router := related
  have same : ∀ spec service, Event.route spec service ∈ events →
      Service.AlikeUnless first second service service :=
    fun _ service _ => Service.AlikeUnless.refl first second service
  constructor
  · refine traffic_run_parallel backend.recording begun rfl same ?_
    intro request member params onLeft onRight alike
    -- A guard does not look at the parameters that a router adds.
    have verdict : first.accept (request.withParams params) =
        second.accept (request.withParams params) := verdicts request member
    exact alike backend.recording (request.withParams params) verdict
  · intro spec service
    have ended := router_run_parallel backend.recording begun same
    exact (ended.route spec (Service.AlikeUnless.refl first second service)).2

end Session

/-- Nothing but the verdicts of its guards depends on the credentials of a gateway.  With two
credentials the same gateway comes of a configuration, or the same error; and whatever is added
to the two gateways and asked of them, nobody can tell them apart as long as each request
is accepted by both or by neither. -/
theorem Gateway.session_secret_free (config : ServerConfig)
    (capabilities : CapabilitySet (Service α)) (first second : Credentials) :
    (∃ error, Gateway.ofSource config capabilities (.ok first) = .error error ∧
        Gateway.ofSource config capabilities (.ok second) = .error error) ∨
      ∃ left right : Gateway α,
        Gateway.ofSource config capabilities (.ok first) = .ok left ∧
          Gateway.ofSource config capabilities (.ok second) = .ok right ∧
          ∀ (backend : Backend α φ σ) (now : Instant) (shared : σ)
            (events : List (Session.Event α)),
            (∀ request, Session.Event.request request ∈ events →
              first.accept request = second.accept request) →
            Session.Indistinct
              ((Session.start left.router now (shared, [])).run backend.recording events)
              ((Session.start right.router now (shared, [])).run backend.recording events) := by
  cases validated : config.validate with
  | error fault =>
      exact Or.inl ⟨.config fault, Gateway.ofSource_of_invalid validated,
        Gateway.ofSource_of_invalid validated⟩
  | ok _ =>
      have asked : ∀ credentials, Gateway.asked config (.ok credentials) =
          .ok (if config.enableBasicAuth then some credentials else none) := by
        intro credentials
        rw [Gateway.asked]
        split <;> rfl
      have keep := Surface.layersKeep_alike first second capabilities config.writeTimeout
        config.enableBasicAuth
      obtain ⟨related, same⟩ := Surface.bind_parallel keep
      rw [Gateway.ofSource_of_asked validated (asked first),
        Gateway.ofSource_of_asked validated (asked second)]
      generalize Surface.bind Router.empty capabilities (some config.writeTimeout)
        (if config.enableBasicAuth then some first else none) = onLeft at related same ⊢
      generalize Surface.bind Router.empty capabilities (some config.writeTimeout)
        (if config.enableBasicAuth then some second else none) = onRight at related same ⊢
      obtain ⟨left, fault⟩ := onLeft
      obtain ⟨right, fault'⟩ := onRight
      dsimp only at related same
      subst same
      cases fault with
      | some fault => exact Or.inl ⟨.ofBindFault fault, rfl, rfl⟩
      | none =>
          refine Or.inr ⟨⟨config, left⟩, ⟨config, right⟩, rfl, rfl, ?_⟩
          intro backend now shared events verdicts
          exact Session.indistinct_run backend related now shared verdicts

/-- Someone who guesses at the password, and looks at the metrics after it, sees the same
of a password as of another one. -/
theorem Gateway.session_secret_free_guess :
    let guess : Request :=
      { method := .get
        target := ⟨"/system/functions", none⟩
        fields := [⟨FieldName.authorization, ⟨encodeUtf8 "Basic YWRtaW46Z3Vlc3M=", by decide⟩⟩]
        body := [] }
    let metrics : Request :=
      { method := .get, target := ⟨"/metrics", none⟩, fields := [], body := [] }
    let events : List (Session.Event Capability) :=
      [.request guess, .poll 0, .request metrics, .poll 1]
    ∃ left right : Gateway Capability,
      Gateway.ofSource { enableBasicAuth := true } CapabilitySet.bare
          (.ok ⟨"admin", "secret"⟩) = .ok left ∧
        Gateway.ofSource { enableBasicAuth := true } CapabilitySet.bare
          (.ok ⟨"admin", "hunter2"⟩) = .ok right ∧
        ∀ (backend : Backend Capability Unit Unit) (now : Instant),
          Session.Indistinct
            ((Session.start left.router now ((), [])).run backend.recording events)
            ((Session.start right.router now ((), [])).run backend.recording events) := by
  intro guess metrics events
  have verdicts : ∀ request, Session.Event.request request ∈ events →
      Credentials.accept ⟨"admin", "secret"⟩ request =
        Credentials.accept ⟨"admin", "hunter2"⟩ request := by
    intro request member
    simp only [events, List.mem_cons, Session.Event.request.injEq, List.not_mem_nil,
      or_false, reduceCtorEq, false_or] at member
    rcases member with rfl | rfl
    · decide
    · rfl
  obtain ⟨router, bound, _⟩ := Surface.bind_eq_none CapabilitySet.bare_complete
    (some Duration.zero) (some ⟨"admin", "secret"⟩)
  have built : Gateway.ofSource { enableBasicAuth := true } CapabilitySet.bare
      (.ok ⟨"admin", "secret"⟩) = .ok ⟨{ enableBasicAuth := true }, router⟩ :=
    Gateway.ofSource_eq_ok_iff.mpr ⟨rfl, rfl, some ⟨"admin", "secret"⟩, rfl, bound⟩
  rcases Gateway.session_secret_free { enableBasicAuth := true } CapabilitySet.bare
    ⟨"admin", "secret"⟩ ⟨"admin", "hunter2"⟩ with ⟨error, failed, _⟩ |
      ⟨left, right, builtLeft, builtRight, sessions⟩
  · exact nomatch built.symm.trans failed
  · exact ⟨left, right, builtLeft, builtRight,
      fun backend now => sessions backend now () events verdicts⟩

end FunctionGateway
