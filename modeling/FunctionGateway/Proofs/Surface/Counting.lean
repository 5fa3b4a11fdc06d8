import FunctionGateway.Proofs.Metrics.Rendering
import FunctionGateway.Proofs.Surface.Sending
import Mathlib.Data.List.Basic

/-!
# What a bound gateway counts

A request that is sent to an entry of the surface holds one future of an instrument from the
time it is dispatched until it is answered or dropped, under the template of the entry.  So over
any session of a bound router, the ledger holds one observation for each finished request
that was sent to an entry, and no other.
-/

namespace FunctionGateway

open FunctionGateway.Http
open FunctionGateway.Metrics
open FunctionGateway.Routing

variable {α φ σ : Type}

/-! ## Answers that count once -/

namespace Pending

/-- An answer that is counted once when it is given, under a template and a method label, or not
at all if there is no template. -/
def CountsOnce (label : String) (sent : Option String) (pending : Pending φ) : Prop :=
  match sent with
  | some template => ∃ inner, pending = .counted label template inner ∧ inner.held = []
  | none => pending.held = []

/-- The observation of a given answer. -/
def observation? (label : String) (sent : Option String) (response : Response) :
    Option Observation :=
  sent.map fun template => { status := response.status, method := label, template }

theorem countsAs_of_held_nil {pending : Pending φ} (silent : pending.held = [])
    (label : String) : pending.CountsAs label := by
  induction pending with
  | job own => trivial
  | done response => trivial
  | bounded limit since inner inductionHypothesis => exact inductionHypothesis silent
  | counted method template inner inductionHypothesis => exact nomatch silent
  | altered change inner inductionHypothesis => exact inductionHypothesis silent

/-- Without a future of an instrument nothing is counted. -/
theorem observations_of_held_nil (backend : Backend α φ σ) {pending : Pending φ}
    {world after : World σ} {response : Response} (silent : pending.held = [])
    (polled : pending.poll backend world = (.ready response, after)) :
    after.ledger.observations = world.ledger.observations := by
  have none : pending.completing backend world = [] := by
    refine List.eq_nil_iff_forall_not_mem.mpr fun completion member => ?_
    have ended := count_held_of_poll_ready backend polled completion.2
    have counted := List.count_pos_iff.mpr (List.mem_map_of_mem member (f := Prod.snd))
    rw [silent, List.count_nil] at ended
    omega
  rw [observations_of_poll_ready backend polled (countsAs_of_held_nil silent ""), none]
  rfl

theorem CountsOnce.of_poll_pending {backend : Backend α φ σ} {label : String}
    {sent : Option String} {pending left : Pending φ} {world after : World σ}
    (counts : pending.CountsOnce label sent)
    (polled : pending.poll backend world = (.pending left, after)) :
    left.CountsOnce label sent := by
  cases sent with
  | none =>
      obtain ⟨_, kept, _⟩ := Pending.of_poll_pending backend polled
      exact kept.trans counts
  | some template =>
      obtain ⟨inner, rfl, silent⟩ := counts
      obtain ⟨rest, inside, rfl⟩ := poll_counted_eq_pending polled
      obtain ⟨_, kept, _⟩ := Pending.of_poll_pending backend inside
      exact ⟨rest, rfl, kept.trans silent⟩

theorem CountsOnce.observations {backend : Backend α φ σ} {label : String}
    {sent : Option String} {pending : Pending φ} {world after : World σ} {response : Response}
    (counts : pending.CountsOnce label sent)
    (polled : pending.poll backend world = (.ready response, after)) :
    after.ledger.observations =
      (observation? label sent response).toList ++ world.ledger.observations := by
  cases sent with
  | none => exact observations_of_held_nil backend counts polled
  | some template =>
      obtain ⟨inner, rfl, silent⟩ := counts
      obtain ⟨next, inside, rfl⟩ := poll_counted_eq_ready polled
      exact congrArg (_ :: ·) (observations_of_held_nil backend silent inside)

/-- An answer that is there from the start. -/
def Gives (response : Response) : Pending φ → Prop
  | .job _ => False
  | .done own => own = response
  | .bounded _ _ inner => inner.Gives response
  | .counted _ _ inner => inner.Gives response
  | .altered _ _ => False

theorem Gives.poll (backend : Backend α φ σ) {pending : Pending φ} {response : Response}
    (gives : pending.Gives response) (world : World σ) :
    ∃ after, pending.poll backend world = (.ready response, after) := by
  induction pending with
  | job own => exact gives.elim
  | done own => exact ⟨world, by rw [Pending.poll, (gives : own = response)]⟩
  | bounded limit since inner inductionHypothesis =>
      obtain ⟨after, inside⟩ := inductionHypothesis gives
      exact ⟨after, by rw [Pending.poll, inside]⟩
  | counted method template inner inductionHypothesis =>
      obtain ⟨after, inside⟩ := inductionHypothesis gives
      exact ⟨_, by rw [Pending.poll, inside]⟩
  | altered change inner inductionHypothesis => exact gives.elim

/-- A poll finds that a handler is not ready at its deadline. -/
def CutOff (backend : Backend α φ σ) (world : World σ) (pending : Pending φ) : Prop :=
  ∃ label template limit since inner left after,
    pending = .counted label template (.bounded limit since inner) ∧
      inner.poll backend world = (.pending left, after) ∧
      since.getD world.now + limit.nanos ≤ after.now

theorem CutOff.poll {backend : Backend α φ σ} {world : World σ} {pending : Pending φ}
    (cut : pending.CutOff backend world) :
    ∃ after, pending.poll backend world = (.ready deadlineExceeded, after) := by
  obtain ⟨label, template, limit, since, inner, left, after, rfl, inside, late⟩ := cut
  simp only [Pending.poll, inside, if_pos late]
  exact ⟨_, rfl⟩

end Pending

/-- What a call of a service comes to counts once, if the service stands behind one instrument. -/
theorem Service.countsOnce_call (backend : Backend α φ σ) {service : Service α}
    {request : Request} (enters : service.entered request = service.counter?.toList)
    (world : World σ) :
    (service.call backend request world).1.CountsOnce (methodLabel request.method)
      service.counter? := by
  cases service with
  | counted template inner =>
      refine ⟨_, rfl, ?_⟩
      rw [Service.held_call]
      exact (List.cons.inj enters).2
  | _ => exact (Service.held_call backend _ request world).trans enters

/-! ## Finished requests -/

namespace Session

/-- The requests among events, in order. -/
def requests (events : List (Event α)) : List Request :=
  events.filterMap fun
    | .request request => some request
    | _ => none

/-- The finished requests, the last one first, each with the answer that was given to it. -/
def finished (asked : List Request) (answers : List (Nat × Response)) :
    List (Request × Response) :=
  answers.filterMap fun (index, response) => asked[index]?.map (·, response)

/-- What is to be counted for a finished request. -/
def observation? (router : Router (Service α)) (served : Request × Response) :
    Option Observation :=
  Pending.observation? (methodLabel served.1.method) (sentTo router served.1) served.2

/-- Whatever the state of the world is, the answer to a request is there at once. -/
def Outright (backend : Backend α φ σ) (router : Router (Service α)) (request : Request)
    (response : Response) : Prop :=
  ∀ world, (dispatch backend router request world).1.Gives response

theorem finished_cons {asked : List Request} {answers : List (Nat × Response)} {index : Nat}
    {request : Request} (own : asked[index]? = some request) (response : Response) :
    finished asked ((index, response) :: answers) =
      (request, response) :: finished asked answers := by
  rw [finished, List.filterMap_cons_some (b := (request, response)) (by simp [own])]
  rfl

/-- Later requests do not change what is finished. -/
theorem finished_append {asked : List Request} {answers : List (Nat × Response)}
    (placed : ∀ answer ∈ answers, answer.1 < asked.length) (later : List Request) :
    finished (asked ++ later) answers = finished asked answers := by
  refine List.filterMap_congr fun (index, response) member => ?_
  have same : (asked ++ later)[index]? = asked[index]? :=
    List.getElem?_append_left (placed (index, response) member)
  exact congrArg (Option.map (·, response)) same

/-- A flight belongs to the request at its place: it counts once where the request is sent, and
gives what is given outright. -/
def Flies (backend : Backend α φ σ) (router : Router (Service α)) (asked : List Request)
    (index : Nat) (flight : Flight φ) : Prop :=
  ∃ request, asked[index]? = some request ∧
    flight.pending.CountsOnce (methodLabel request.method) (sentTo router request) ∧
    ∀ response, Outright backend router request response → flight.pending.Gives response

/-- An answer belongs to the request at its place. -/
def Lands (backend : Backend α φ σ) (router : Router (Service α)) (asked : List Request)
    (index : Nat) (response : Response) : Prop :=
  ∃ request, asked[index]? = some request ∧
    ∀ fixed, Outright backend router request fixed → response = fixed

/-- The books of a session at a router: its flights and answers belong to the requests that were
dispatched, and its ledger holds the observations of the finished ones. -/
structure Kept (backend : Backend α φ σ) (router : Router (Service α)) (asked : List Request)
    (session : Session α φ σ) : Prop where
  unchanged : session.router = router
  placed : session.traffic.flights.length = asked.length
  flying : ∀ index flight, session.traffic.flight? index = some flight →
    Flies backend router asked index flight
  landed : ∀ index response, (index, response) ∈ session.traffic.answers →
    session.traffic.flight? index = none ∧ Lands backend router asked index response
  once : (session.traffic.answers.map Prod.fst).Nodup
  observed : session.traffic.world.ledger.observations =
    (finished asked session.traffic.answers).filterMap (observation? router)

variable {backend : Backend α φ σ} {router : Router (Service α)} {asked : List Request}
  {session : Session α φ σ}

theorem Kept.index_lt (kept : Kept backend router asked session) :
    ∀ answer ∈ session.traffic.answers, answer.1 < asked.length := by
  rintro ⟨index, response⟩ member
  obtain ⟨_, request, own, _⟩ := kept.landed index response member
  exact (List.getElem?_eq_some_iff.mp own).1

/-! ## Dispatching a request -/

theorem flight?_append (flights : List (Option (Flight φ))) (flight : Flight φ) (index : Nat) :
    ((flights ++ [some flight])[index]?).join =
      if index = flights.length then some flight else (flights[index]?).join := by
  by_cases last : index = flights.length
  · simp [last]
  · rw [if_neg last]
    rcases Nat.lt_or_gt_of_ne last with below | above
    · rw [List.getElem?_append_left below]
    · rw [List.getElem?_eq_none (by simp; omega), List.getElem?_eq_none (by omega)]

theorem Kept.request (kept : Kept backend router asked session)
    (enters : ∀ request, (target router request).1.entered (target router request).2 =
      (sentTo router request).toList) (request : Request) :
    Kept backend router (asked ++ [request]) (session.step backend (.request request)) := by
  have own := kept.unchanged
  subst own
  have grown : ∀ {index : Nat} {earlier : Request}, asked[index]? = some earlier →
      (asked ++ [request])[index]? = some earlier := by
    intro index earlier known
    rw [List.getElem?_append_left (List.getElem?_eq_some_iff.mp known).1]
    exact known
  have method : (target session.router request).2.method = request.method := by
    rw [target]
    cases session.router.resolve request <;> rfl
  constructor
  case unchanged => rfl
  case placed =>
    rw [List.length_append, ← kept.placed]
    exact List.length_append
  case flying =>
    intro index flight found
    simp only [step, Traffic.call, Traffic.flight?, flight?_append] at found
    split at found
    · rename_i last
      obtain rfl := Option.some.inj found
      refine ⟨request, by rw [last, kept.placed]; simp, ?_, ?_⟩
      · rw [← method]
        exact Service.countsOnce_call backend (enters request) _
      · intro response outright
        have gives := outright session.traffic.world
        rwa [dispatch_eq_call] at gives
    · obtain ⟨earlier, known, rest⟩ := kept.flying index flight found
      exact ⟨earlier, grown known, rest⟩
  case landed =>
    intro index response member
    have below := kept.index_lt (index, response) member
    obtain ⟨given, earlier, known, rest⟩ := kept.landed index response member
    refine ⟨?_, earlier, grown known, rest⟩
    simp only [step, Traffic.call, Traffic.flight?, flight?_append]
    rw [if_neg (by rw [kept.placed]; exact Nat.ne_of_lt below)]
    exact given
  case once => exact kept.once
  case observed =>
    simp only [step, Traffic.call]
    rw [Service.observations_call, kept.observed, finished_append kept.index_lt]

/-! ## Polling and dropping an answer -/

section Place

variable {index : Nat} {flight : Flight φ}

theorem flight?_set {traffic : Traffic φ σ} (found : traffic.flight? index = some flight)
    (next : Option (Flight φ)) (other : Nat) :
    ((traffic.flights.set index next)[other]?).join =
      if other = index then next else traffic.flight? other := by
  have inside := (List.getElem?_eq_some_iff.mp (Traffic.getElem?_of_flight? found)).1
  by_cases same : other = index
  · rw [same, if_pos rfl, List.getElem?_set_self inside]
    rfl
  · rw [if_neg same, List.getElem?_set_ne (Ne.symm same)]
    rfl

/-- An answer that was given has no flight, so it is not at the place of a flight. -/
theorem Kept.index_ne (kept : Kept backend router asked session)
    (found : session.traffic.flight? index = some flight) {other : Nat} {response : Response}
    (member : (other, response) ∈ session.traffic.answers) : other ≠ index := by
  rintro rfl
  exact nomatch (kept.landed other response member).1.symm.trans found

/-- Changing one flight leaves the others where they belong. -/
theorem Kept.flying_set (kept : Kept backend router asked session)
    (found : session.traffic.flight? index = some flight) {next : Option (Flight φ)}
    (belongs : ∀ left, next = some left → Flies backend router asked index left) (other : Nat)
    (own : Flight φ) (there : ((session.traffic.flights.set index next)[other]?).join = some own) :
    Flies backend router asked other own := by
  rw [flight?_set found] at there
  split at there
  · rename_i same
    rw [same]
    exact belongs own there
  · exact kept.flying other own there

theorem Kept.landed_set (kept : Kept backend router asked session)
    (found : session.traffic.flight? index = some flight) (next : Option (Flight φ))
    {other : Nat} {response : Response} (member : (other, response) ∈ session.traffic.answers) :
    ((session.traffic.flights.set index next)[other]?).join = none ∧
      Lands backend router asked other response := by
  obtain ⟨given, lands⟩ := kept.landed other response member
  rw [flight?_set found, if_neg (kept.index_ne found member)]
  exact ⟨given, lands⟩

end Place

theorem Kept.poll (kept : Kept backend router asked session) (index : Nat) :
    Kept backend router asked (session.step backend (.poll index)) := by
  simp only [step, Traffic.poll]
  split
  · exact kept
  · rename_i flight found
    obtain ⟨request, own, counts, outright⟩ := kept.flying index flight found
    split
    · rename_i left after polled
      obtain ⟨same, _⟩ := Pending.of_poll_pending backend polled
      have belongs : Flies backend router asked index { flight with pending := left } := by
        refine ⟨request, own, counts.of_poll_pending polled, fun response given => ?_⟩
        obtain ⟨ended, ready⟩ := (outright response given).poll backend session.traffic.world
        rw [polled] at ready
        cases (Prod.mk.inj ready).1
      constructor
      case unchanged => exact kept.unchanged
      case placed => exact List.length_set.trans kept.placed
      case flying => exact kept.flying_set found fun next same => Option.some.inj same ▸ belongs
      case landed => exact fun other response member => kept.landed_set found _ member
      case once => exact kept.once
      case observed =>
        simp only [same]
        exact kept.observed
    · rename_i response after polled
      have lands : Lands backend router asked index response := by
        refine ⟨request, own, fun fixed given => ?_⟩
        obtain ⟨ended, ready⟩ := (outright fixed given).poll backend session.traffic.world
        rw [polled] at ready
        exact Polled.ready.inj (Prod.mk.inj ready).1
      constructor
      case unchanged => exact kept.unchanged
      case placed => exact List.length_set.trans kept.placed
      case flying =>
        refine kept.flying_set found ?_
        rintro next ⟨⟩
      case landed =>
        intro other given member
        rcases List.mem_cons.mp member with same | earlier
        · obtain ⟨rfl, rfl⟩ := Prod.mk.inj same
          exact ⟨by rw [Traffic.flight?, flight?_set found, if_pos rfl], lands⟩
        · exact kept.landed_set found none earlier
      case once =>
        refine List.nodup_cons.mpr ⟨fun member => ?_, kept.once⟩
        obtain ⟨⟨other, given⟩, earlier, same⟩ := List.mem_map.mp member
        exact kept.index_ne found earlier same
      case observed =>
        rw [finished_cons own, counts.observations polled, kept.observed, List.filterMap_cons,
          observation?]
        cases Pending.observation? _ (sentTo router request) response <;> rfl

theorem Kept.drop (kept : Kept backend router asked session) (index : Nat) :
    Kept backend router asked (session.step backend (.drop index)) := by
  simp only [step, Traffic.drop]
  split
  · exact kept
  · rename_i flight found
    constructor
    case unchanged => exact kept.unchanged
    case placed => exact List.length_set.trans kept.placed
    case flying =>
      refine kept.flying_set found ?_
      rintro next ⟨⟩
    case landed => exact fun other response member => kept.landed_set found none member
    case once => exact kept.once
    case observed =>
      simp only [Pending.observations_abandon]
      exact kept.observed

/-! ## Runs -/

/-- An event that is not the adding of a route. -/
def Event.isPlain : Event α → Bool
  | .route _ _ => false
  | _ => true

theorem requests_cons (event : Event α) (events : List (Event α)) :
    requests (event :: events) = requests [event] ++ requests events :=
  List.filterMap_append (l := [event])

theorem Kept.step (kept : Kept backend router asked session)
    (enters : ∀ request, (target router request).1.entered (target router request).2 =
      (sentTo router request).toList) {event : Event α} (plain : event.isPlain = true) :
    Kept backend router (asked ++ requests [event]) (session.step backend event) := by
  cases event with
  | route spec service => exact nomatch plain
  | request request => exact kept.request enters request
  | poll index => exact (List.append_nil asked).symm ▸ kept.poll index
  | drop index => exact (List.append_nil asked).symm ▸ kept.drop index
  | reach instant =>
      refine (List.append_nil asked).symm ▸ ?_
      exact ⟨kept.unchanged, kept.placed, kept.flying, kept.landed, kept.once, kept.observed⟩
  | read template =>
      refine (List.append_nil asked).symm ▸ ?_
      exact ⟨kept.unchanged, kept.placed, kept.flying, kept.landed, kept.once, kept.observed⟩

theorem Kept.run (kept : Kept backend router asked session)
    (enters : ∀ request, (target router request).1.entered (target router request).2 =
      (sentTo router request).toList) {events : List (Event α)}
    (plain : ∀ event ∈ events, event.isPlain = true) :
    Kept backend router (asked ++ requests events) (session.run backend events) := by
  induction events generalizing asked session with
  | nil => exact (List.append_nil asked).symm ▸ kept
  | cons event rest inductionHypothesis =>
      rw [requests_cons, ← List.append_assoc]
      exact inductionHypothesis (kept.step enters (plain event List.mem_cons_self))
        (fun later member => plain later (List.mem_cons_of_mem event member))

end Session

end FunctionGateway
