import FunctionGateway.Proofs.Authentication.Presenting
import FunctionGateway.Proofs.Surface.Documented
import FunctionGateway.Proofs.Surface.Served
import FunctionGateway.Proofs.Surface.Session

/-!
# Which requests the guards let through

With authentication on, the service in the slot of a guarded capability can be reached
through its guard only, whatever further routes are added beside the surface and however
a path is spelled.  The argument runs two sessions in step, one at a gateway with the
guards and one at the same gateway without them.
-/

namespace FunctionGateway

open FunctionGateway.Http
open FunctionGateway.Metrics
open FunctionGateway.Routing
open FunctionGateway.Text

variable {α φ σ : Type}

namespace Session

/-- The services of the further routes that are added in a session. -/
def Adds (events : List (Event α)) (service : Service α) : Prop :=
  ∃ spec, Event.route spec service ∈ events

/-- A handler that stands in slots of guarded capabilities only, and behind no further
route. -/
def GuardedOnly (capabilities : CapabilitySet (Service α)) (events : List (Event α))
    (handler : α) : Prop :=
  (∀ capability slot, capabilities.get? capability = some slot →
      slot.core? = some handler → capability ∈ Surface.authRequired) ∧
    ∀ service, Adds events service → service.core? ≠ some handler

variable {capabilities : CapabilitySet (Service α)} {limit : Duration}
  {credentials : Credentials} {further : Service α → Prop}

/-! ## Calls of guarded handlers -/

/-- All calls of a handler so far were made with requests that present the credentials. -/
def CalledPresented (credentials : Credentials) (handler : α)
    (session : Session α φ (σ × Calls α)) : Prop :=
  ∀ request, (handler, request) ∈ session.calls → credentials.PresentedBy request

theorem calledPresented_step (backend : Backend α φ σ)
    {guarded bare : Session α φ (σ × Calls α)}
    (related :
      Router.Related (Surface.Served capabilities limit credentials further)
        guarded.router bare.router)
    {handler : α}
    (inSlots : ∀ capability slot, capabilities.get? capability = some slot →
      slot.core? = some handler → capability ∈ Surface.authRequired)
    (notFurther : ∀ service, further service → service.core? ≠ some handler)
    (soFar : guarded.CalledPresented credentials handler) (event : Event α) :
    (guarded.step backend.recording event).CalledPresented credentials handler := by
  cases event with
  | route spec service => exact soFar
  | reach instant => exact soFar
  | read template => exact soFar
  | poll index =>
      intro seen called
      rw [calls, step, Traffic.calls_poll] at called
      exact soFar seen called
  | drop index =>
      intro seen called
      rw [calls, step, Traffic.calls_drop] at called
      exact soFar seen called
  | request request =>
      intro seen called
      by_cases fresh : (handler, seen) ∈ guarded.calls
      · exact soFar seen fresh
      · simp only [calls, step, target] at called
        rcases related.resolve request with
          ⟨left, right, params, served, onLeft, _⟩ | ⟨allowed, onLeft, _⟩ | ⟨onLeft, _⟩
        · simp only [onLeft, Traffic.call] at called
          exact (credentials.accept_iff seen).mp
            (served.accept_of_called inSlots notFurther backend called fresh)
        · simp only [onLeft, Traffic.call] at called
          exact absurd called fresh
        · simp only [onLeft, Traffic.call] at called
          exact absurd called fresh

theorem calledPresented_run (backend : Backend α φ σ)
    {guarded bare : Session α φ (σ × Calls α)}
    (related :
      Router.Related (Surface.Served capabilities limit credentials further)
        guarded.router bare.router)
    {events : List (Event α)}
    (added : ∀ spec service, Event.route spec service ∈ events → further service)
    {handler : α}
    (inSlots : ∀ capability slot, capabilities.get? capability = some slot →
      slot.core? = some handler → capability ∈ Surface.authRequired)
    (notFurther : ∀ service, further service → service.core? ≠ some handler)
    (soFar : guarded.CalledPresented credentials handler) :
    (guarded.run backend.recording events).CalledPresented credentials handler := by
  induction events generalizing guarded bare with
  | nil => exact soFar
  | cons event rest inductionHypothesis =>
      refine inductionHypothesis (router_step_parallel backend.recording related ?_)
        (fun spec service member => added spec service (List.mem_cons_of_mem event member))
        (calledPresented_step backend related inSlots notFurther soFar event)
      rintro spec service rfl
      exact Surface.Served.further service (added spec service List.mem_cons_self)

/-! ## Sessions at a gateway -/

/-- What the guards make of a session, told beside the same session without them.  A session
was begun with `events`; what is said of a further request holds for each request of a session,
at the place where it comes. -/
structure Protected (capabilities : CapabilitySet (Service α)) (limit : Duration)
    (credentials : Credentials) (backend : Backend α φ (σ × Calls α)) (events : List (Event α))
    (guarded bare : Session α φ (σ × Calls α)) : Prop where
  /-- A handler in slots of guarded capabilities is called for requests that present the
  credentials, and for no others. -/
  called : ∀ handler, GuardedOnly capabilities events handler →
    guarded.CalledPresented credentials handler
  /-- No service is reached but those that were put there, each in its layers. -/
  reached : ∀ request service params,
    guarded.router.resolve request = .found service params →
      ∃ counterpart, bare.router.resolve request = .found counterpart params ∧
        Surface.Served capabilities limit credentials (Adds events) service counterpart
  /-- At a guarded row whoever does not present them is refused, and nobody is called. -/
  turned : ∀ row slot request params,
    row ∈ Surface.table → row.capability ∈ Surface.authRequired →
      capabilities.get? row.capability = some slot →
        guarded.router.resolve request =
            .found (row.service (some limit) (some credentials) slot) params →
          ¬ credentials.PresentedBy request →
            ∀ world, TurnedAway backend world (dispatch backend guarded.router request world)
  /-- Header fields have no part in which service is reached, and where no guard stands in
  front of it none in how it is called. -/
  unasked : ∀ request service inner params,
    guarded.router.resolve request = .found service params →
      Surface.Unguarded capabilities limit credentials service inner →
        ∀ fields, let other := { request with fields }
          guarded.router.resolve other = .found service params ∧
            (∀ world, dispatch backend guarded.router other world =
              dispatch backend bare.router other world) ∧
            ((∀ world, inner.call backend (other.withParams params) world =
                inner.call backend (request.withParams params) world) →
              ∀ world, dispatch backend guarded.router other world =
                dispatch backend guarded.router request world)
  /-- Where all requests present the credentials nobody can tell that there are guards. -/
  transparent :
    (∀ request, Event.request request ∈ events → credentials.PresentedBy request) →
      guarded.traffic = bare.traffic

/-- Routers that differ by the guards alone give sessions that do. -/
theorem protected_run (backend : Backend α φ σ) {guarded bare : Router (Service α)}
    (now : Instant) (shared : σ) (events : List (Event α))
    (related :
      Router.Related (Surface.Served capabilities limit credentials (Adds events))
        guarded bare) :
    Protected capabilities limit credentials backend.recording events
      ((start guarded now (shared, [])).run backend.recording events)
      ((start bare now (shared, [])).run backend.recording events) := by
  have begun : Router.Related (Surface.Served capabilities limit credentials (Adds events))
      (start guarded now (shared, []) : Session α φ (σ × Calls α)).router
      (start bare now (shared, []) : Session α φ (σ × Calls α)).router := related
  have keep : ∀ spec service, Event.route spec service ∈ events →
      Surface.Served capabilities limit credentials (Adds events) service service :=
    fun spec service member => Surface.Served.further service ⟨spec, member⟩
  have ended := router_run_parallel backend.recording begun keep
  constructor
  · intro handler only
    refine calledPresented_run backend begun (fun spec _ member => ⟨spec, member⟩) only.1 only.2 ?_
    exact fun request called => absurd called List.not_mem_nil
  · intro request service params found
    rcases ended.resolve request with
      ⟨left, right, taken, served, onLeft, onRight⟩ | ⟨allowed, onLeft, _⟩ | ⟨onLeft, _⟩
    · cases found.symm.trans onLeft
      exact ⟨right, onRight, served⟩
    · exact nomatch found.symm.trans onLeft
    · exact nomatch found.symm.trans onLeft
  · intro row slot request params listed inAuth filled found unpresented world
    have rejected : credentials.accept (request.withParams params) = false :=
      (credentials.accept_eq_false_iff request).mpr unpresented
    rw [dispatch, found]
    exact row.call_of_rejected backend.recording (List.contains_iff_mem.mpr inAuth) limit
      credentials slot rejected world
  · intro request service inner params found unguarded fields other
    have foundOther :
        ((start guarded now (shared, [])).run backend.recording events).router.resolve other =
          .found service params := found
    refine ⟨foundOther, fun world => ?_, fun alike world => ?_⟩
    · rcases ended.resolve other with
        ⟨left, right, taken, served, onLeft, onRight⟩ | ⟨allowed, onLeft, _⟩ | ⟨onLeft, _⟩
      · cases foundOther.symm.trans onLeft
        rw [dispatch, dispatch, onLeft, onRight, served.eq_of_unguarded unguarded]
      · exact nomatch foundOther.symm.trans onLeft
      · exact nomatch foundOther.symm.trans onLeft
    · have method : (other.withParams params).method = (request.withParams params).method := rfl
      rw [dispatch, dispatch, foundOther, found]
      exact unguarded.call_eq backend.recording method alike world
  · intro presented
    refine traffic_run_parallel backend.recording begun rfl keep ?_
    intro request member params left right served
    have accepted : credentials.accept (request.withParams params) = true :=
      (credentials.accept_iff request).mpr (presented request member)
    exact served.callAlike_of_accepted backend.recording accepted

end Session

/-- Authentication is complete and transparent.  A gateway that asks for credentials has a
counterpart that does not, and whatever is added to the two and asked of them, the guards
turn away exactly who does not present the credentials from exactly the rows that are guarded. -/
theorem Gateway.session_protected {config : ServerConfig}
    {capabilities : CapabilitySet (Service α)} {credentials : Credentials} {gateway : Gateway α}
    (enabled : config.enableBasicAuth = true)
    (built : Gateway.ofSource config capabilities (.ok credentials) = .ok gateway) :
    ∃ opened : Gateway α,
      (∀ source, Gateway.ofSource { config with enableBasicAuth := false } capabilities source =
        .ok opened) ∧
      ∀ (backend : Backend α φ σ) (now : Instant) (shared : σ) (events : List (Session.Event α)),
        Session.Protected capabilities config.writeTimeout credentials backend.recording events
          ((Session.start gateway.router now (shared, [])).run backend.recording events)
          ((Session.start opened.router now (shared, [])).run backend.recording events) := by
  obtain ⟨valid, _, auth, asked, bound⟩ := Gateway.ofSource_eq_ok_iff.mp built
  rw [Gateway.asked, enabled, if_pos rfl] at asked
  cases asked
  have related := fun further => @Surface.bind_related α capabilities config.writeTimeout
    credentials further
  have ended := (related fun _ => False).2
  rw [bound] at ended
  refine ⟨⟨{ config with enableBasicAuth := false },
    (Surface.bind Router.empty capabilities (some config.writeTimeout) none).1⟩, ?_, ?_⟩
  · intro source
    apply Gateway.ofSource_eq_ok_iff.mpr
    exact ⟨valid, rfl, none, rfl, Prod.ext rfl ended.symm⟩
  · intro backend now shared events
    have routers := (related (Session.Adds events)).1
    rw [bound] at routers
    exact Session.protected_run backend now shared events routers

/-- With the required slots alone there is such a gateway.  A request for the information that
presents nothing is turned away there, and one that presents the credentials is handed on. -/
theorem Gateway.session_protected_bare :
    let stranger : Request :=
      { method := .get, target := ⟨"/system/info", none⟩, fields := [], body := [] }
    let admin : Request :=
      { stranger with
        fields := [(.authorization, ⟨encodeUtf8 "Basic YWRtaW46c2VjcmV0", by decide⟩)] }
    ∃ gateway opened : Gateway Capability,
      Gateway.ofSource { enableBasicAuth := true } CapabilitySet.bare
        (.ok ⟨"admin", "secret"⟩) = .ok gateway ∧
      (∀ source, Gateway.ofSource { enableBasicAuth := false } CapabilitySet.bare source =
        .ok opened) ∧
      ∀ (backend : Backend Capability Unit Unit) (now : Instant),
        (∀ events : List (Session.Event Capability),
          Session.Protected CapabilitySet.bare Duration.zero ⟨"admin", "secret"⟩
            backend.recording events
            ((Session.start gateway.router now ((), [])).run backend.recording events)
            ((Session.start opened.router now ((), [])).run backend.recording events)) ∧
        ∀ world, TurnedAway backend.recording world
            (dispatch backend.recording gateway.router stranger world) ∧
          (dispatch backend.recording gateway.router admin world).2.shared.2 =
            (.info, admin) :: world.shared.2 := by
  intro stranger admin
  let row : SurfaceRow := ⟨.info, .exactly "/system/info" (.one .get), .fail⟩
  obtain ⟨router, bound, settles⟩ := Surface.bind_eq_none CapabilitySet.bare_complete
    (some Duration.zero) (some ⟨"admin", "secret"⟩)
  have listed : row ∈ Surface.table :=
    List.mem_of_getElem? (show Surface.table[6]? = some row from rfl)
  have applies : Surface.Applies CapabilitySet.bare .get (Percent.decode "/system/info")
      (.slot row (.handler .info)) none none := by
    have plain : Percent.decode "/system/info" = "/system/info" := by decide +kernel
    rw [plain]
    exact ⟨Surface.Offered.slot row _ listed rfl, rfl, PathForm.Has.exactly "/system/info"⟩
  have found : ∀ fields, router.resolve { stranger with fields } =
      .found (row.service (some Duration.zero) (some ⟨"admin", "secret"⟩) (.handler .info)) [] :=
    fun _ => (settles _ _ _).mpr (Surface.settled_of_applies _ applies)
  have built : Gateway.ofSource { enableBasicAuth := true } CapabilitySet.bare
      (.ok ⟨"admin", "secret"⟩) = .ok ⟨{ enableBasicAuth := true }, router⟩ :=
    Gateway.ofSource_eq_ok_iff.mpr ⟨rfl, rfl, some ⟨"admin", "secret"⟩, rfl, bound⟩
  obtain ⟨opened, construct, sessions⟩ := Gateway.session_protected rfl built
  refine ⟨_, opened, built, construct, fun backend now => ⟨sessions backend now (), ?_⟩⟩
  intro world
  constructor
  · have unpresented : ¬ Credentials.PresentedBy ⟨"admin", "secret"⟩ stranger := by
      rw [← Credentials.accept_eq_false_iff]
      decide +kernel
    exact (sessions backend now () []).turned row (.handler .info) stranger [] listed
      (by decide) rfl (found []) unpresented world
  · have accepted : Credentials.accept ⟨"admin", "secret"⟩ admin = true := by decide +kernel
    have called : dispatch backend.recording router admin world =
        (row.service (some Duration.zero) (some ⟨"admin", "secret"⟩) (.handler .info)).call
          backend.recording admin world := by
      rw [dispatch, found]
      rfl
    have alike := row.callAlike_of_accepted backend.recording Duration.zero _ (.handler .info)
      accepted
    rw [called, alike.2 world]
    rfl

end FunctionGateway
