import FunctionGateway.Proofs.Service.Polling
import FunctionGateway.Proofs.Service.Traffic

/-!
# Conservation of counted requests

An instrument raises a gauge when it is called and lowers it when its future ends,
wherever that happens: the future completes, is dropped before its first poll or
later, or goes down with the answer of a deadline round it.  The main statement
says that nothing is lost or counted twice over any order of events: the gauge of
a template shows the futures under way, its counters show those that
completed, and dropped futures are counted nowhere.
-/

namespace FunctionGateway

open FunctionGateway.Http
open FunctionGateway.Metrics

variable {α φ σ : Type}

/-! ## Calling a service -/

theorem Service.held_call (backend : Backend α φ σ)
    (service : Service α) (request : Request) (world : World σ) :
    (service.call backend request world).1.held = service.entered request := by
  induction service generalizing world with
  | handler own => rfl
  | answer response => rfl
  | exposition => rfl
  | guarded credentials inner inductionHypothesis =>
      by_cases accepted : credentials.accept request = true
      · simpa [Service.call, Service.entered, accepted] using inductionHypothesis world
      · simp [Service.call, Service.entered, accepted, Pending.held]
  | bounded limit inner inductionHypothesis =>
      simpa [Service.call, Service.entered, Pending.held] using inductionHypothesis world
  | counted template inner inductionHypothesis =>
      simp only [Service.call, Service.entered, Pending.held]
      rw [inductionHypothesis]
  | altered change inner inductionHypothesis =>
      simpa [Service.call, Service.entered, Pending.held] using inductionHypothesis world

theorem Service.observations_call (backend : Backend α φ σ)
    (service : Service α) (request : Request) (world : World σ) :
    (service.call backend request world).2.ledger.observations =
      world.ledger.observations := by
  induction service generalizing world with
  | handler own => rfl
  | answer response => rfl
  | exposition => rfl
  | guarded credentials inner inductionHypothesis =>
      by_cases accepted : credentials.accept request = true
      · simpa [Service.call, accepted] using inductionHypothesis world
      · simp [Service.call, accepted]
  | bounded limit inner inductionHypothesis => exact inductionHypothesis world
  | counted template inner inductionHypothesis => exact inductionHypothesis _
  | altered change inner inductionHypothesis => exact inductionHypothesis world

/-- A call raises the gauge of a template once for every instrument it enters. -/
theorem Service.inFlight_call (backend : Backend α φ σ)
    (service : Service α) (request : Request) (world : World σ) (template : String) :
    (service.call backend request world).2.ledger.inFlight template =
      world.ledger.inFlight template + (service.entered request).count template := by
  induction service generalizing world with
  | handler own => simp [Service.call, Service.entered]
  | answer response => simp [Service.call, Service.entered]
  | exposition => simp [Service.call, Service.entered]
  | guarded credentials inner inductionHypothesis =>
      by_cases accepted : credentials.accept request = true
      · simpa [Service.call, Service.entered, accepted] using inductionHypothesis world
      · simp [Service.call, Service.entered, accepted]
  | bounded limit inner inductionHypothesis => exact inductionHypothesis world
  | counted own inner inductionHypothesis =>
      have entered := inductionHypothesis { world with ledger := world.ledger.enter own }
      simp only [Service.call, Service.entered]
      rw [entered, Ledger.inFlight_enter, List.count_cons]
      by_cases same : template = own
      · subst same
        simp only [if_true, beq_self_eq_true]
        omega
      · simp [same, Ne.symm same]
  | altered change inner inductionHypothesis => exact inductionHypothesis world

/-- Every instrument whose future the answer holds counts under one method label. -/
def Pending.CountsAs (label : String) : Pending φ → Prop
  | .job _ => True
  | .done _ => True
  | .bounded _ _ inner => inner.CountsAs label
  | .counted method _ inner => method = label ∧ inner.CountsAs label
  | .altered _ inner => inner.CountsAs label

theorem Service.countsAs_call (backend : Backend α φ σ)
    (service : Service α) (request : Request) (world : World σ) :
    (service.call backend request world).1.CountsAs (methodLabel request.method) := by
  induction service generalizing world with
  | handler own => trivial
  | answer response => trivial
  | exposition => trivial
  | guarded credentials inner inductionHypothesis =>
      by_cases accepted : credentials.accept request = true
      · simpa [Service.call, accepted] using inductionHypothesis world
      · simp [Service.call, accepted, Pending.CountsAs]
  | bounded limit inner inductionHypothesis => exact inductionHypothesis world
  | counted template inner inductionHypothesis => exact ⟨rfl, inductionHypothesis _⟩
  | altered change inner inductionHypothesis => exact inductionHypothesis world

namespace Pending

/-! ## Dropping an answer -/

theorem observations_abandon (backend : Backend α φ σ)
    (pending : Pending φ) (world : World σ) :
    (pending.abandon backend world).ledger.observations = world.ledger.observations := by
  induction pending generalizing world with
  | job own => rfl
  | done response => rfl
  | bounded limit since inner inductionHypothesis => exact inductionHypothesis world
  | counted method template inner inductionHypothesis => exact inductionHypothesis world
  | altered change inner inductionHypothesis => exact inductionHypothesis world

/-- Dropping an answer lowers the gauge of a template once for every future it holds. -/
theorem inFlight_abandon (backend : Backend α φ σ)
    (pending : Pending φ) (world : World σ) (template : String) :
    (pending.abandon backend world).ledger.inFlight template =
      world.ledger.inFlight template - pending.held.count template := by
  induction pending generalizing world with
  | job own => simp [abandon, held]
  | done response => simp [abandon, held]
  | bounded limit since inner inductionHypothesis => exact inductionHypothesis world
  | counted method own inner inductionHypothesis =>
      simp only [abandon, held]
      rw [Ledger.inFlight_leave, inductionHypothesis, List.count_cons]
      by_cases same : template = own
      · subst same
        simp only [if_true, beq_self_eq_true]
        omega
      · simp [same, Ne.symm same]
  | altered change inner inductionHypothesis => exact inductionHypothesis world

/-! ## Polling an answer -/

/-- An answer that is not ready leaves the ledger alone and keeps its futures. -/
theorem of_poll_pending (backend : Backend α φ σ)
    {pending left : Pending φ} {world after : World σ}
    (polled : pending.poll backend world = (.pending left, after)) :
    after.ledger = world.ledger ∧ left.held = pending.held ∧
      pending.completing backend world = [] ∧
      ∀ label, pending.CountsAs label → left.CountsAs label := by
  induction pending generalizing left after with
  | job own =>
      obtain ⟨rest, shared, _, rfl, rfl⟩ := poll_job_eq_pending polled
      exact ⟨rfl, rfl, rfl, fun _ _ => trivial⟩
  | done response => simp [poll] at polled
  | bounded limit since inner inductionHypothesis =>
      obtain ⟨rest, inside, _, rfl⟩ := poll_bounded_eq_pending polled
      have unchanged := inductionHypothesis inside
      exact unchanged
  | counted method template inner inductionHypothesis =>
      obtain ⟨rest, inside, rfl⟩ := poll_counted_eq_pending polled
      obtain ⟨same, kept, none, counts⟩ := inductionHypothesis inside
      refine ⟨same, ?_, ?_, ?_⟩
      · simp only [held, kept]
      · simp only [completing, inside, none]
      · exact fun label own => ⟨own.1, counts label own.2⟩
  | altered change inner inductionHypothesis =>
      obtain ⟨rest, inside, rfl⟩ := poll_altered_eq_pending polled
      have unchanged := inductionHypothesis inside
      exact unchanged

/-- An answer that becomes ready ends each of its futures once. -/
theorem count_held_of_poll_ready (backend : Backend α φ σ)
    {pending : Pending φ} {world after : World σ} {response : Response}
    (polled : pending.poll backend world = (.ready response, after)) (template : String) :
    pending.held.count template =
      ((pending.completing backend world).map Prod.snd).count template +
        (pending.dropping backend world).count template := by
  induction pending generalizing response after with
  | job own => simp [held, completing, dropping]
  | done response => simp [held, completing, dropping]
  | bounded limit since inner inductionHypothesis =>
      rcases poll_bounded_eq_ready polled with inside | ⟨left, next, inside, late, _, _⟩
      · simpa [held, completing, dropping, inside] using inductionHypothesis inside
      · obtain ⟨_, kept, none, _⟩ := of_poll_pending backend inside
        simp [held, completing, dropping, inside, late, kept, none]
  | counted method own inner inductionHypothesis =>
      obtain ⟨next, inside, _⟩ := poll_counted_eq_ready polled
      have balance := inductionHypothesis inside
      simp only [held, completing, dropping, inside, List.map_cons, List.count_cons]
      omega
  | altered change inner inductionHypothesis =>
      obtain ⟨early, inside, _⟩ := poll_altered_eq_ready polled
      exact inductionHypothesis inside

/-- An answer that becomes ready lowers a gauge once for every future it held. -/
theorem inFlight_of_poll_ready (backend : Backend α φ σ)
    {pending : Pending φ} {world after : World σ} {response : Response}
    (polled : pending.poll backend world = (.ready response, after)) (template : String) :
    after.ledger.inFlight template =
      world.ledger.inFlight template - pending.held.count template := by
  induction pending generalizing response after with
  | job own =>
      simp only [poll, Prod.mk.injEq] at polled
      obtain ⟨_, rfl⟩ := polled
      simp [held]
  | done own =>
      simp only [poll, Prod.mk.injEq] at polled
      obtain ⟨_, rfl⟩ := polled
      simp [held]
  | bounded limit since inner inductionHypothesis =>
      rcases poll_bounded_eq_ready polled with inside | ⟨left, next, inside, _, _, rfl⟩
      · exact inductionHypothesis inside
      · obtain ⟨same, kept, _, _⟩ := of_poll_pending backend inside
        rw [inFlight_abandon, same, kept, held]
  | counted method own inner inductionHypothesis =>
      obtain ⟨next, inside, rfl⟩ := poll_counted_eq_ready polled
      have lowered := inductionHypothesis inside
      rw [Ledger.inFlight_observe, Ledger.inFlight_leave, lowered, held, List.count_cons]
      by_cases same : template = own
      · subst same
        simp only [if_true, beq_self_eq_true]
        omega
      · simp [same, Ne.symm same]
  | altered change inner inductionHypothesis =>
      obtain ⟨early, inside, _⟩ := poll_altered_eq_ready polled
      exact inductionHypothesis inside

/-- An answer that becomes ready is counted once for every future that completes, and
for no other. -/
theorem observations_of_poll_ready (backend : Backend α φ σ)
    {pending : Pending φ} {world after : World σ} {response : Response} {label : String}
    (polled : pending.poll backend world = (.ready response, after))
    (counts : pending.CountsAs label) :
    after.ledger.observations =
      (pending.completing backend world).map
          (fun (status, template) => Observation.mk status label template) ++
        world.ledger.observations := by
  induction pending generalizing response after with
  | job own =>
      simp only [poll, Prod.mk.injEq] at polled
      obtain ⟨_, rfl⟩ := polled
      rfl
  | done own =>
      simp only [poll, Prod.mk.injEq] at polled
      obtain ⟨_, rfl⟩ := polled
      rfl
  | bounded limit since inner inductionHypothesis =>
      rcases poll_bounded_eq_ready polled with inside | ⟨left, next, inside, _, _, rfl⟩
      · exact inductionHypothesis inside counts
      · obtain ⟨same, _, none, _⟩ := of_poll_pending backend inside
        rw [observations_abandon, same, completing, none]
        rfl
  | counted method template inner inductionHypothesis =>
      obtain ⟨rfl, within⟩ := counts
      obtain ⟨next, inside, rfl⟩ := poll_counted_eq_ready polled
      have counted := inductionHypothesis inside within
      simp only [completing, inside, List.map_cons, List.cons_append]
      rw [← counted]
      rfl
  | altered change inner inductionHypothesis =>
      obtain ⟨early, inside, _⟩ := poll_altered_eq_ready polled
      exact inductionHypothesis inside counts

end Pending

/-! ## Method labels -/

/-- What the ledger keeps of a future that completed. -/
def Completion.observation (completion : Completion) : Observation :=
  { status := completion.status
    method := methodLabel completion.method
    template := completion.template }

theorem methodLabel_eq_token_iff {standard : Method} (member : standard ∈ Method.standard)
    (method : Method) : methodLabel method = standard.token ↔ method = standard := by
  constructor
  · intro same
    by_cases known : method ∈ Method.standard
    · rw [methodLabel, if_pos (List.contains_iff_mem.mpr known)] at same
      cases method
      cases standard
      simpa using same
    · rw [methodLabel, if_neg (by simpa using known)] at same
      have reserved : ∀ own ∈ Method.standard, "other" ≠ own.token := by decide
      exact absurd same (reserved standard member)
  · rintro rfl
    rw [methodLabel, if_pos (List.contains_iff_mem.mpr member)]

theorem methodLabel_eq_other_iff (method : Method) :
    methodLabel method = "other" ↔ method ∉ Method.standard := by
  by_cases known : method ∈ Method.standard
  · have reserved : ∀ own ∈ Method.standard, own.token ≠ "other" := by decide
    rw [methodLabel, if_pos (List.contains_iff_mem.mpr known)]
    exact iff_of_false (reserved method known) (not_not_intro known)
  · rw [methodLabel, if_neg (by simpa using known)]
    exact iff_of_true rfl known

/-! ## Traffics -/

namespace Traffic

/-- The flight at one place is all that replacing it changes. -/
theorem count_flatMap_set (flights : List (Option (Flight φ))) (index : Nat)
    {own : Option (Flight φ)} (found : flights[index]? = some own)
    (next : Option (Flight φ)) (template : String) :
    ((flights.set index next).flatMap heldBy).count template + (heldBy own).count template =
      (flights.flatMap heldBy).count template + (heldBy next).count template := by
  induction flights generalizing index with
  | nil => simp at found
  | cons first rest inductionHypothesis =>
      cases index with
      | zero =>
          have same : first = own := by simpa using found
          subst same
          simp only [List.set_cons_zero, List.flatMap_cons, List.count_append]
          omega
      | succ earlier =>
          have later := inductionHypothesis earlier (by simpa using found)
          simp only [List.set_cons_succ, List.flatMap_cons, List.count_append]
          omega

theorem getElem?_of_flight? {traffic : Traffic φ σ} {index : Nat} {flight : Flight φ}
    (found : traffic.flight? index = some flight) :
    traffic.flights[index]? = some (some flight) := by
  simpa [flight?, Option.join_eq_some_iff] using found

/-- The books balance: gauges show the futures under way, every future made is under way,
completed or dropped, and the observations are exactly the completions. -/
structure Balanced (traffic : Traffic φ σ) : Prop where
  gauges : ∀ template,
    traffic.world.ledger.inFlight template = traffic.underWay template
  fates : ∀ template,
    traffic.history.made.count template =
      traffic.underWay template +
        (traffic.history.completed.map Completion.template).count template +
        traffic.history.dropped.count template
  counted :
    traffic.world.ledger.observations = traffic.history.completed.map Completion.observation
  labels : ∀ flight, some flight ∈ traffic.flights →
    flight.pending.CountsAs (methodLabel flight.method)

theorem balanced_start (now : Instant) (shared : σ) :
    (start now shared : Traffic φ σ).Balanced where
  gauges := fun _ => rfl
  fates := fun _ => rfl
  counted := rfl
  labels := fun _ member => by simp [start] at member

theorem Balanced.call {traffic : Traffic φ σ} (balanced : traffic.Balanced)
    (backend : Backend α φ σ) (service : Service α) (request : Request) :
    (traffic.call backend service request).Balanced := by
  have grown : ∀ template,
      (traffic.call backend service request).underWay template =
        traffic.underWay template + (service.entered request).count template := by
    intro template
    simp [underWay, Traffic.call, heldBy, Service.held_call]
  constructor
  · intro template
    rw [grown]
    simp only [Traffic.call]
    rw [Service.inFlight_call, balanced.gauges]
    simp
  · intro template
    rw [grown]
    have fate := balanced.fates template
    simp only [Traffic.call, List.count_append]
    omega
  · simp only [Traffic.call]
    rw [Service.observations_call, balanced.counted]
  · intro flight member
    rcases List.mem_append.mp member with earlier | new
    · exact balanced.labels flight earlier
    · have same : flight = ⟨request.method, (service.call backend request traffic.world).1⟩ := by
        simpa using new
      rw [same]
      exact Service.countsAs_call backend service request traffic.world

theorem labels_set {traffic : Traffic φ σ} (balanced : traffic.Balanced)
    {index : Nat} {next : Option (Flight φ)}
    (counts : ∀ flight, next = some flight →
      flight.pending.CountsAs (methodLabel flight.method)) :
    ∀ flight, some flight ∈ traffic.flights.set index next →
      flight.pending.CountsAs (methodLabel flight.method) := by
  intro flight member
  rcases List.mem_or_eq_of_mem_set member with earlier | new
  · exact balanced.labels flight earlier
  · exact counts flight new.symm

theorem Balanced.poll {traffic : Traffic φ σ} (balanced : traffic.Balanced)
    (backend : Backend α φ σ) (index : Nat) :
    (traffic.poll backend index).Balanced := by
  rw [Traffic.poll]
  split
  · exact balanced
  · rename_i flight found
    have place := getElem?_of_flight? found
    have own := balanced.labels flight (List.mem_of_getElem? place)
    split
    · rename_i left after polled
      obtain ⟨same, kept, _, counts⟩ := Pending.of_poll_pending backend polled
      have unmoved : ∀ template,
          ((traffic.flights.set index (some { flight with pending := left })).flatMap
            heldBy).count template = traffic.underWay template := by
        intro template
        have moved := count_flatMap_set traffic.flights index place
          (some { flight with pending := left }) template
        simp only [heldBy, kept] at moved
        rw [underWay]
        omega
      constructor
      · intro template
        simp only [underWay, unmoved, same]
        exact balanced.gauges template
      · intro template
        simp only [underWay, unmoved]
        exact balanced.fates template
      · simp only [same]
        exact balanced.counted
      · refine labels_set balanced ?_
        intro next equal
        obtain rfl := Option.some.inj equal
        exact counts _ own
    · rename_i response after polled
      have moved : ∀ template,
          ((traffic.flights.set index none).flatMap heldBy).count template +
              flight.pending.held.count template =
            traffic.underWay template := by
        intro template
        exact count_flatMap_set traffic.flights index place none template
      constructor
      · intro template
        simp only [underWay]
        rw [Pending.inFlight_of_poll_ready backend polled, balanced.gauges, ← moved]
        omega
      · intro template
        have fate := balanced.fates template
        have ended := Pending.count_held_of_poll_ready backend polled template
        have lowered := moved template
        have templates :
            ((flight.pending.completing backend traffic.world).map fun (status, own) =>
                Completion.mk flight.method status own).map Completion.template =
              (flight.pending.completing backend traffic.world).map Prod.snd := by
          rw [List.map_map]
          rfl
        simp only [underWay, List.map_append, templates, List.count_append]
        omega
      · simp only [List.map_append, List.map_map]
        rw [Pending.observations_of_poll_ready backend polled own, balanced.counted]
        rfl
      · exact labels_set balanced (fun _ equal => nomatch equal)

theorem Balanced.drop {traffic : Traffic φ σ} (balanced : traffic.Balanced)
    (backend : Backend α φ σ) (index : Nat) :
    (traffic.drop backend index).Balanced := by
  rw [Traffic.drop]
  split
  · exact balanced
  · rename_i flight found
    have moved : ∀ template,
        ((traffic.flights.set index none).flatMap heldBy).count template +
            flight.pending.held.count template =
          traffic.underWay template := by
      intro template
      exact count_flatMap_set traffic.flights index (getElem?_of_flight? found) none template
    constructor
    · intro template
      simp only [underWay]
      rw [Pending.inFlight_abandon, balanced.gauges, ← moved]
      omega
    · intro template
      have fate := balanced.fates template
      have lowered := moved template
      simp only [underWay, List.count_append]
      omega
    · simp only
      rw [Pending.observations_abandon, balanced.counted]
    · exact labels_set balanced (fun _ equal => nomatch equal)

/-- Reading a gauge that is not there yet makes it visible and changes no number. -/
theorem Balanced.read {traffic : Traffic φ σ} (balanced : traffic.Balanced)
    (own : String) :
    ({ traffic with world.ledger := traffic.world.ledger.touch own }).Balanced := by
  have same : ∀ template,
      (traffic.world.ledger.touch own).inFlight template =
        traffic.world.ledger.inFlight template := by
    intro template
    have adjusted := Ledger.lookup_adjust own template 0 traffic.world.ledger.gauges
    simpa [Ledger.touch, Ledger.inFlight] using adjusted
  exact ⟨fun template => (same template).trans (balanced.gauges template),
    balanced.fates, balanced.counted, balanced.labels⟩

theorem Balanced.step {traffic : Traffic φ σ} (balanced : traffic.Balanced)
    (backend : Backend α φ σ) (event : Event α) :
    (traffic.step backend event).Balanced := by
  cases event with
  | call service request => exact balanced.call backend service request
  | poll index => exact balanced.poll backend index
  | drop index => exact balanced.drop backend index
  | reach instant => exact ⟨balanced.gauges, balanced.fates, balanced.counted, balanced.labels⟩
  | read template => exact balanced.read template

theorem Balanced.run {traffic : Traffic φ σ} (balanced : traffic.Balanced)
    (backend : Backend α φ σ) (events : List (Event α)) :
    (traffic.run backend events).Balanced := by
  induction events generalizing traffic with
  | nil => exact balanced
  | cons event rest inductionHypothesis =>
      exact inductionHypothesis (balanced.step backend event)

/-! ## The numbers a ledger shows -/

theorem Balanced.requestCount {traffic : Traffic φ σ} (balanced : traffic.Balanced)
    (template : String) :
    traffic.world.ledger.requestCount template =
      traffic.history.completed.countP (·.template = template) := by
  rw [Ledger.requestCount, balanced.counted, List.countP_map]
  rfl

theorem Balanced.count {traffic : Traffic φ σ} (balanced : traffic.Balanced)
    (status : Status) (label template : String) :
    traffic.world.ledger.count { status, method := label, template } =
      traffic.history.completed.countP fun completion =>
        completion.status = status ∧ methodLabel completion.method = label ∧
          completion.template = template := by
  rw [Ledger.count, List.count, balanced.counted, List.countP_map]
  refine List.countP_congr fun completion _ => ?_
  simp [Completion.observation]

/-- Over any order of calls, polls and drops, every gauge shows the futures of its instruments
that neither completed nor were dropped, the counters of a template add up to those that
completed, and each counter shows those that completed with its status for a request
of its method. -/
theorem run_conserves_requests (backend : Backend α φ σ) (now : Instant) (shared : σ)
    (events : List (Event α)) (template : String) :
    let traffic : Traffic φ σ := (start now shared).run backend events
    let ledger := traffic.world.ledger
    let history := traffic.history
    ledger.inFlight template = traffic.underWay template ∧
      history.made.count template =
        traffic.underWay template +
          history.completed.countP (·.template = template) +
          history.dropped.count template ∧
      ledger.requestCount template = history.completed.countP (·.template = template) ∧
      (∀ status, ∀ method ∈ Method.standard,
        ledger.count { status, method := method.token, template } =
          history.completed.count { method, status, template }) ∧
      ∀ status,
        ledger.count { status, method := "other", template } =
          history.completed.countP fun completion =>
            completion.method ∉ Method.standard ∧ completion.status = status ∧
              completion.template = template := by
  intro traffic ledger history
  have balanced : traffic.Balanced := (balanced_start now shared).run backend events
  refine ⟨balanced.gauges template, ?_, balanced.requestCount template, ?_, ?_⟩
  · have fate := balanced.fates template
    rw [List.count, List.countP_map] at fate
    exact fate
  · intro status method standard
    rw [balanced.count, List.count]
    refine List.countP_congr fun completion _ => ?_
    cases completion with
    | mk own code label =>
        simp only [methodLabel_eq_token_iff standard, decide_eq_true_eq, beq_iff_eq,
          Completion.mk.injEq]
        exact and_left_comm
  · intro status
    rw [balanced.count]
    refine List.countP_congr fun completion _ => ?_
    simp only [methodLabel_eq_other_iff, decide_eq_true_eq]
    exact and_left_comm

end Traffic

end FunctionGateway
