import FunctionGateway.Proofs.Http.Wording
import FunctionGateway.Proofs.Service.Layering
import FunctionGateway.Proofs.Service.Recording
import FunctionGateway.Service.Scripted

/-!
# Calling through a stack of layers

A request is handed to a stack and its answer awaited at once.  What the list of the layers
tells is what happens: the answer and its time, the calls of the handler, the instruments
entered and what they add to the ledger.
-/

namespace FunctionGateway

open FunctionGateway.Http
open FunctionGateway.Metrics

variable {α φ σ : Type}

/-- The stack of some decorations, the outermost first. -/
def Stack.ofDecorations (decorations : List Decoration) : Stack (Service α) :=
  ⟨decorations.map Decoration.layer⟩

/-- The answer that a poll shows, if it is there. -/
def Polled.response? {π : Type} : Polled π → Option Response
  | .ready response => some response
  | .pending _ => none

/-- Keeping a record of the calls does not change how long a handler takes. -/
theorem Backend.Takes.recording {backend : Backend α φ σ} {handler : α} {request : Request}
    {shared : σ} {time : Option Nat} {response : Response}
    (takes : backend.Takes handler request shared time response) (calls : Calls α) :
    backend.recording.Takes handler request (shared, calls) time response := by
  intro now
  have first := takes now
  cases polled : backend.poll (backend.start handler request shared).1 now
      (backend.start handler request shared).2 with
  | mk shown next =>
      rw [polled] at first
      simp only [Backend.recording, polled]
      cases shown with
      | ready given => exact first
      | pending left =>
          obtain ⟨positive, wakes, again⟩ := first
          refine ⟨positive, wakes, ?_⟩
          intro later reached
          have second := again later reached
          cases repeated : backend.poll left later next with
          | mk result last =>
              rw [repeated] at second
              simp only [repeated]
              cases result with
              | ready given => exact second
              | pending rest => exact second

/-- A scripted delay takes its length. -/
theorem Scripted.takes_delay (id : String) (report : List String) (length : Duration)
    (response : Response) (request : Request) (stage : Scripted.Stage) :
    Scripted.backend.Takes ⟨id, report, .delay length response⟩ request stage
      (some length.nanos) response := by
  intro now
  simp only [Scripted.backend, Scripted.start, Scripted.Script.job, Scripted.poll,
    Option.getD_none]
  by_cases none : length.nanos = 0
  · simp [none]
  · have later : ¬ now + length.nanos ≤ now := Nat.not_le.mpr (Nat.lt_add_of_pos_right
      (Nat.pos_of_ne_zero none))
    simp only [if_neg later]
    refine ⟨fun same => none (Option.some.inj same), rfl, ?_⟩
    intro instant reached
    by_cases passed : now + length.nanos ≤ instant
    · simp [passed]
    · have before : instant < now + length.nanos := Nat.not_le.mp passed
      simp [passed, before]

/-- Awaiting an answer calls nobody. -/
theorem Backend.calls_await (backend : Backend α φ σ) (pending : Pending φ)
    (world : World (σ × Calls α)) :
    (pending.await backend.recording world).2.shared.2 = world.shared.2 := by
  have first := backend.calls_poll pending world
  rw [Pending.await]
  split
  · rename_i response after polled
    simpa only [polled] using first
  · rename_i left after polled
    have begun : after.shared.2 = world.shared.2 := by simpa only [polled] using first
    split
    · exact begun
    · rename_i instant _
      have second := backend.calls_poll left (after.reach instant)
      exact second.trans begun

theorem Service.now_call (backend : Backend α φ σ) (service : Service α) (request : Request)
    (world : World σ) : (service.call backend request world).2.now = world.now := by
  induction service generalizing world with
  | handler own => rfl
  | answer response => rfl
  | exposition => rfl
  | guarded credentials inner inductionHypothesis =>
      by_cases accepted : credentials.accept request = true
      · simpa [Service.call, accepted] using inductionHypothesis world
      · simp [Service.call, accepted]
  | bounded limit inner inductionHypothesis => exact inductionHypothesis world
  | counted template inner inductionHypothesis => exact inductionHypothesis _
  | altered change inner inductionHypothesis => exact inductionHypothesis world

/-- Every gauge that a call raised is lowered again once its answer is there. -/
theorem Pending.inFlight_await (backend : Backend α φ σ) {pending : Pending φ}
    {world after : World σ} {response : Response}
    (awaited : pending.await backend world = (.ready response, after)) (template : String) :
    after.ledger.inFlight template =
      world.ledger.inFlight template - pending.held.count template := by
  rw [await] at awaited
  split at awaited
  · rename_i early first polled
    obtain ⟨_, rfl⟩ := Prod.mk.inj awaited
    exact inFlight_of_poll_ready backend polled template
  · rename_i left first polled
    obtain ⟨same, kept, _, _⟩ := of_poll_pending backend polled
    split at awaited
    · cases awaited
    · rename_i instant _
      have ended := inFlight_of_poll_ready backend awaited template
      have unmoved : (first.reach instant).ledger = world.ledger := same
      rw [ended, unmoved, kept]

namespace Decoration

/-! ## The order of the layers -/

/-- Limits that are the same but for their order have the same least one. -/
theorem leastLimit?_of_perm {first second : List Decoration} (same : first.Perm second) :
    leastLimit? first = leastLimit? second := by
  have limits : (first.filterMap limit?).Perm (second.filterMap limit?) := same.filterMap limit?
  apply Option.ext
  intro least
  simp only [leastLimit?, List.min?_eq_some_iff, limits.mem_iff]

/-- The order of the layers makes no difference for the answer. -/
theorem answer_of_perm {first second : List Decoration} (same : first.Perm second)
    (request : Request) (outcome : Outcome) :
    answer first request outcome = answer second request outcome := by
  rw [answer, answer, same.any_eq, leastLimit?_of_perm same]

/-- Nothing is observed as long as there is no answer. -/
theorem observed_of_answer_none {decorations : List Decoration} {request : Request}
    {outcome : Outcome} (never : answer decorations request outcome = none) :
    observed decorations request outcome = [] := by
  apply List.filterMap_eq_nil_iff.mpr
  intro spot member
  apply Option.eq_none_iff_forall_ne_some.mpr
  intro observation seen
  obtain ⟨time, response, answered, entered, early, _⟩ := observation?_eq_some_iff.mp seen
  have whole := answer_of_observation? member entered answered early
  cases never.symm.trans whole

end Decoration

namespace Stack

variable {backend : Backend α φ σ} {handler : α} {request : Request} {time : Option Nat}
  {response : Response}

/-! ## Calling a stack -/

theorem apply_cons (decoration : Decoration) (inside : List Decoration) (service : Service α) :
    (Stack.ofDecorations (decoration :: inside)).apply service =
      decoration.layer ((Stack.ofDecorations inside).apply service) :=
  rfl

/-- A stack answers after the time, and with the observations, that the list of its layers
tells. -/
theorem takes_call (decorations : List Decoration) {world : World σ}
    (takes : backend.Takes handler request world.shared time response) :
    let called :=
      ((Stack.ofDecorations decorations).apply (.handler handler)).call backend request world
    called.1.Takes backend (Decoration.answer decorations request (time.map (·, response)))
      (Decoration.observed decorations request (time.map (·, response))) called.2 := by
  induction decorations generalizing world with
  | nil => exact Pending.takes_job takes
  | cons decoration inside inductionHypothesis =>
      cases decoration with
      | guard credentials =>
          have layered := apply_cons (α := α) (.guard credentials) inside (.handler handler)
          rw [layered]
          by_cases accepted : credentials.accept request = true
          · have accepts : (Decoration.guard credentials).rejects request = false := by
              simp [Decoration.rejects, accepted]
            rw [Decoration.answer_cons_of_passing accepts rfl,
              Decoration.observed_cons_of_passing accepts rfl (fun _ same => by cases same)]
            have deeper := inductionHypothesis takes
            simpa [Decoration.layer, Layer.guard, Service.call, accepted] using deeper
          · have rejects : (Decoration.guard credentials).rejects request = true := by
              simp [Decoration.rejects, accepted]
            rw [Decoration.answer_cons_of_rejects rejects,
              Decoration.observed_cons_of_rejects (Bool.eq_false_iff.mpr accepted)]
            have refused := Pending.takes_done backend unauthorized world
            simpa [Decoration.layer, Layer.guard, Service.call, accepted] using refused
      | deadline limit =>
          have layered := apply_cons (α := α) (.deadline limit) inside (.handler handler)
          have deeper := inductionHypothesis takes
          rw [layered]
          cases zero : limit.isZero with
          | true =>
              have unlimited : (Decoration.deadline limit).limit? = none := by
                simp [Decoration.limit?, zero]
              rw [Decoration.answer_cons_of_passing rfl unlimited,
                Decoration.observed_cons_of_passing rfl unlimited (fun _ same => by cases same)]
              simpa [Decoration.layer, Layer.deadline, zero] using deeper
          | false =>
              have positive : 0 < limit.nanos := Nat.pos_of_ne_zero (by
                simpa [Duration.isZero] using zero)
              rw [Decoration.answer_deadline zero, Decoration.observed_cons_of_limit zero]
              have bounded := Pending.takes_bounded positive deeper
              simpa [Decoration.layer, Layer.deadline, zero, Service.call] using bounded
      | instrument template =>
          have layered := apply_cons (α := α) (.instrument template) inside (.handler handler)
          rw [layered, Decoration.answer_cons_of_passing rfl rfl,
            Decoration.observed_cons_instrument]
          have deeper :=
            @inductionHypothesis { world with ledger := world.ledger.enter template } takes
          exact Pending.takes_counted deeper

/-- The handler is called once, with the request as it came, unless a guard rejects it. -/
theorem calls_call (backend : Backend α φ σ) (handler : α) (request : Request)
    (decorations : List Decoration) (world : World (σ × Calls α)) :
    (((Stack.ofDecorations decorations).apply (.handler handler)).call backend.recording request
        world).2.shared.2 =
      (if decorations.any (Decoration.rejects request) then [] else [(handler, request)]) ++
        world.shared.2 := by
  induction decorations generalizing world with
  | nil => rfl
  | cons decoration inside inductionHypothesis =>
      rw [apply_cons]
      cases decoration with
      | guard credentials =>
          by_cases accepted : credentials.accept request = true
          · have deeper := inductionHypothesis world
            simpa [Decoration.layer, Layer.guard, Service.call, Decoration.rejects, accepted]
              using deeper
          · simp [Decoration.layer, Layer.guard, Service.call, Decoration.rejects, accepted]
      | deadline limit =>
          have deeper := inductionHypothesis world
          rw [Decoration.layer, Layer.deadline]
          split
          · exact deeper
          · exact deeper
      | instrument template =>
          exact inductionHypothesis { world with ledger := world.ledger.enter template }

/-- The instruments that a call enters are those behind accepting guards only. -/
theorem entered_ofDecorations (handler : α) (request : Request) (decorations : List Decoration) :
    ((Stack.ofDecorations decorations).apply (.handler handler)).entered request =
      ((Decoration.mounted decorations).filter (Mounted.entered request)).map
        Mounted.template := by
  induction decorations with
  | nil => rfl
  | cons decoration inside inductionHypothesis =>
      have further : ∀ spot : Mounted,
          Mounted.entered request { spot with outside := decoration :: spot.outside } =
            (!decoration.rejects request && spot.entered request) := by
        intro spot
        simp [Mounted.entered]
      rw [apply_cons]
      cases decoration with
      | guard credentials =>
          by_cases accepted : credentials.accept request = true
          · simp [Decoration.layer, Layer.guard, Service.entered, accepted, Decoration.mounted,
              List.filter_map, Function.comp_def, further, Decoration.rejects,
              inductionHypothesis]
          · simp [Decoration.layer, Layer.guard, Service.entered, accepted, Decoration.mounted,
              List.filter_map, Function.comp_def, further, Decoration.rejects]
      | deadline limit =>
          have behind : (Decoration.layer (.deadline limit)
              ((Stack.ofDecorations inside).apply (.handler handler))).entered request =
              ((Stack.ofDecorations inside).apply (.handler handler)).entered request := by
            rw [Decoration.layer, Layer.deadline]
            split
            · rfl
            · rfl
          rw [behind, inductionHypothesis]
          simp [Decoration.mounted, List.filter_map, Function.comp_def, further,
            Decoration.rejects]
      | instrument template =>
          have own : Mounted.entered request ⟨[], template, inside⟩ = true := by
            simp [Mounted.entered]
          simp [Decoration.layer, Layer.instrument, Service.entered, Decoration.mounted,
            List.filter_map, Function.comp_def, further, Decoration.rejects, own,
            inductionHypothesis]

/-! ## Awaiting the answer -/

/-- What comes of a request that is handed to a stack and awaited at once. -/
theorem respond_of_takes (decorations : List Decoration) {world : World σ}
    (takes : backend.Takes handler request world.shared time response) :
    let outcome := Decoration.answer decorations request (time.map (·, response))
    let run := ((Stack.ofDecorations decorations).apply (.handler handler)).respond backend
      request world
    run.1.response? = outcome.map Prod.snd ∧
      run.2.now = world.now + (outcome.map Prod.fst).getD 0 ∧
      run.2.ledger.observations =
        Decoration.observed decorations request (time.map (·, response)) ++
          world.ledger.observations ∧
      (outcome = none → ∃ left, run.1 = .pending left ∧ ∀ later, run.2.now ≤ later →
        ∃ rest after, left.poll backend (run.2.reach later) = (.pending rest, after)) := by
  intro outcome run
  let service := (Stack.ofDecorations decorations).apply (.handler handler)
  let called := service.call backend request world
  have begun : called.1.Takes backend outcome
      (Decoration.observed decorations request (time.map (·, response))) called.2 :=
    takes_call decorations takes
  have clock := service.now_call backend request world
  have counted := service.observations_call backend request world
  cases ended : outcome with
  | some ending =>
      obtain ⟨length, given⟩ := ending
      rw [ended] at begun
      obtain ⟨after, awaited, reached, observations⟩ := Pending.await_of_takes begun
      have same : run = (.ready given, after) := awaited
      rw [same]
      refine ⟨rfl, reached.trans (congrArg (· + length) clock), ?_, ?_⟩
      · rw [observations, counted]
      · intro impossible
        cases impossible
  | none =>
      rw [ended] at begun
      obtain ⟨left, after, awaited, reached, observations, forever⟩ :=
        Pending.await_of_takes_none begun
      have same : run = (.pending left, after) := awaited
      rw [same]
      refine ⟨rfl, reached.trans clock, ?_, fun _ => ⟨left, rfl, forever⟩⟩
      rw [observations, counted, Decoration.observed_of_answer_none ended, List.nil_append]

/-- The gauges that a call raises, and lowers again with the answer. -/
theorem inFlight_respond (backend : Backend α φ σ) (handler : α) (request : Request)
    (decorations : List Decoration) (world : World σ) (template : String) :
    let service := (Stack.ofDecorations decorations).apply (.handler handler)
    let called := service.call backend request world
    let run := service.respond backend request world
    called.2.ledger.inFlight template =
        world.ledger.inFlight template +
          (Decoration.mounted decorations).countP (fun spot =>
            spot.entered request && spot.template = template) ∧
      (run.1.response?.isSome →
        run.2.ledger.inFlight template = world.ledger.inFlight template) := by
  intro service called run
  have raised := service.inFlight_call backend request world template
  refine ⟨?_, ?_⟩
  · rw [raised, entered_ofDecorations, List.count, List.countP_map, List.countP_filter]
    congr 3
    funext spot
    simp [Bool.and_comm, Bool.beq_eq_decide_eq]
  · intro answered
    cases awaited : run.1 with
    | pending left => simp [awaited, Polled.response?] at answered
    | ready given =>
        have whole : called.1.await backend called.2 = (.ready given, run.2) := by
          rw [← awaited]
          rfl
        rw [Pending.inFlight_await backend whole, Service.held_call, raised]
        exact Int.add_sub_cancel _ _

/-- A request handed to any stack and awaited at once is answered as the list of the layers
tells: by a refusal at once if a guard rejects it, otherwise by the handler if it meets the
least limit and by a refusal at that limit if not.  The handler is called once unless a guard
rejects the request, and neither the answer nor its time depends on the order of the layers;
the refusals read the same every time.  An instrument is entered if no guard outside rejects
the request, and observes the answer of the layers inside of it if that is there before a limit
outside has passed. -/
theorem respond_ofDecorations (backend : Backend α φ σ) (decorations : List Decoration)
    {handler : α} {request : Request} {time : Option Nat} {response : Response}
    {world : World (σ × Calls α)}
    (takes : backend.Takes handler request world.shared.1 time response) :
    let rejected := decorations.any (Decoration.rejects request)
    let outcome := Decoration.answer decorations request (time.map (·, response))
    let service := (Stack.ofDecorations decorations).apply (.handler handler)
    let called := service.call backend.recording request world
    let run := service.respond backend.recording request world
    (unauthorized.IsRefusal ∧ deadlineExceeded.IsTimeout) ∧
      run.2.shared.2 = (if rejected then [] else [(handler, request)]) ++ world.shared.2 ∧
      run.1.response? = outcome.map Prod.snd ∧
      run.2.now = world.now + (outcome.map Prod.fst).getD 0 ∧
      (outcome = none → ∃ left, run.1 = .pending left ∧ ∀ later, run.2.now ≤ later →
        ∃ rest after, left.poll backend.recording (run.2.reach later) = (.pending rest, after)) ∧
      (∀ other : List Decoration, other.Perm decorations →
        let its := ((Stack.ofDecorations other).apply (.handler handler)).respond
          backend.recording request world
        its.1.response? = run.1.response? ∧ its.2.now = run.2.now ∧
          its.2.shared.2 = run.2.shared.2) ∧
      run.2.ledger.observations =
        (Decoration.mounted decorations).filterMap
            (Mounted.observation? request (time.map (·, response))) ++
          world.ledger.observations ∧
      ∀ template,
        called.2.ledger.inFlight template =
            world.ledger.inFlight template +
              (Decoration.mounted decorations).countP fun spot =>
                spot.entered request && spot.template = template ∧
          (outcome ≠ none →
            run.2.ledger.inFlight template = world.ledger.inFlight template) := by
  intro rejected outcome service called run
  have lifted := takes.recording world.shared.2
  obtain ⟨answered, reached, observations, forever⟩ := respond_of_takes decorations lifted
  have calls : ∀ list : List Decoration,
      (((Stack.ofDecorations list).apply (.handler handler)).respond backend.recording request
          world).2.shared.2 =
        (if list.any (Decoration.rejects request) then [] else [(handler, request)]) ++
          world.shared.2 := by
    intro list
    rw [Service.respond, Backend.calls_await]
    exact calls_call backend handler request list world
  refine ⟨⟨unauthorized_isRefusal, deadlineExceeded_isTimeout⟩, calls decorations, answered, reached,
    forever, ?_, observations, ?_⟩
  · intro other same
    obtain ⟨itsAnswer, itsTime, _, _⟩ := respond_of_takes other lifted
    have equal := Decoration.answer_of_perm same request (time.map (·, response))
    rw [equal] at itsAnswer itsTime
    refine ⟨itsAnswer.trans answered.symm, itsTime.trans reached.symm, ?_⟩
    rw [calls other, calls decorations, same.any_eq]
  · intro template
    obtain ⟨raised, lowered⟩ :=
      inFlight_respond backend.recording handler request decorations world template
    refine ⟨raised, fun ended => lowered ?_⟩
    rw [answered, Option.isSome_map]
    exact Option.isSome_iff_ne_none.mpr ended

/-- A handler that takes longer than the inner of two deadlines, with an instrument outside of
both, between them and inside of both. -/
theorem respond_ofDecorations_nested :
    let slow : Scripted.Handler := ⟨"slow", [], .delay ⟨7⟩ (Response.text "late")⟩
    let request : Request := { method := .get, target := ⟨"/", none⟩, fields := [], body := [] }
    let world : World (Scripted.Stage × Calls Scripted.Handler) := ⟨2, Ledger.empty, {}, []⟩
    let run := ((Stack.ofDecorations [.instrument "/outer", .deadline ⟨9⟩, .instrument "/between",
      .deadline ⟨5⟩, .instrument "/inner"]).apply (.handler slow)).respond
        Scripted.backend.recording request world
    Scripted.backend.Takes slow request world.shared.1 (some 7) (Response.text "late") ∧
      run.1.response? = some deadlineExceeded ∧ run.2.now = 7 ∧
      run.2.shared.2 = [(slow, request)] ∧
      run.2.ledger.observations =
        [⟨.serviceUnavailable, "GET", "/outer"⟩, ⟨.serviceUnavailable, "GET", "/between"⟩] := by
  intro slow request world run
  have takes : Scripted.backend.Takes slow request world.shared.1 (some 7)
      (Response.text "late") :=
    Scripted.takes_delay "slow" [] ⟨7⟩ (Response.text "late") request {}
  have told := respond_ofDecorations Scripted.backend [.instrument "/outer", .deadline ⟨9⟩,
    .instrument "/between", .deadline ⟨5⟩, .instrument "/inner"] takes
  obtain ⟨_, calls, answered, reached, _, _, observations, _⟩ := told
  exact ⟨takes, answered, reached, calls, observations⟩

end Stack

end FunctionGateway
