import FunctionGateway.Proofs.Metrics.Conservation
import FunctionGateway.Proofs.Service.Recording

/-!
# How long an answer takes

A handler that is called and awaited at once answers a certain time after the first poll, or
never.  The same can be said of an answer with decorations round it: a guard that rejects
takes no time, a deadline cuts an answer off that takes longer, and an instrument takes as
long as what it counts.  Times are in nanoseconds.
-/

namespace FunctionGateway

open FunctionGateway.Http
open FunctionGateway.Metrics

variable {α φ σ : Type}

/-- The time an answer takes from its first poll, and the answer; nothing if there never
is one. -/
abbrev Outcome := Option (Nat × Response)

/-- What becomes of an answer behind a limit. -/
def Outcome.cut (limit : Nat) : Outcome → Outcome
  | some (time, response) =>
      if time ≤ limit then some (time, response) else some (limit, deadlineExceeded)
  | none => some (limit, deadlineExceeded)

/-- An answer is there before a limit has passed, or just then. -/
def Outcome.within (limit : Nat) : Outcome → Bool
  | some (time, _) => time ≤ limit
  | none => false

namespace Outcome

theorem cut_of_within {limit : Nat} {outcome : Outcome} (inTime : outcome.within limit = true) :
    outcome.cut limit = outcome := by
  cases outcome with
  | none => cases inTime
  | some ending =>
      have early : ending.1 ≤ limit := of_decide_eq_true inTime
      exact if_pos early

theorem cut_of_not_within {limit : Nat} {outcome : Outcome}
    (late : ¬ outcome.within limit = true) :
    outcome.cut limit = some (limit, deadlineExceeded) := by
  cases outcome with
  | none => rfl
  | some ending =>
      have longer : ¬ ending.1 ≤ limit := fun early => late (decide_eq_true early)
      exact if_neg longer

/-- Behind a limit there is an answer, no later than the limit and than the answer itself. -/
theorem exists_cut (limit : Nat) (outcome : Outcome) :
    ∃ time response, outcome.cut limit = some (time, response) ∧ time ≤ limit ∧
      ∀ length given, outcome = some (length, given) → time ≤ length := by
  cases outcome with
  | none =>
      refine ⟨limit, deadlineExceeded, rfl, Nat.le_refl limit, ?_⟩
      intro length given impossible
      cases impossible
  | some ending =>
      obtain ⟨time, response⟩ := ending
      by_cases early : time ≤ limit
      · refine ⟨time, response, if_pos early, early, ?_⟩
        rintro length given ⟨⟩
        exact Nat.le_refl time
      · refine ⟨limit, deadlineExceeded, if_neg early, Nat.le_refl limit, ?_⟩
        rintro length given ⟨⟩
        exact Nat.le_of_not_le early

/-- Of two limits the smaller one counts. -/
theorem cut_cut (outcome : Outcome) (first second : Nat) :
    (outcome.cut second).cut first = outcome.cut (min first second) := by
  cases outcome with
  | none =>
      rcases Nat.le_total second first with less | more
      · simp [cut, less]
      · by_cases same : second ≤ first
        · simp [cut, same]
        · simp [cut, same, Nat.min_eq_left more]
  | some ending =>
      obtain ⟨time, response⟩ := ending
      by_cases inner : time ≤ second
      · rcases Nat.le_total second first with less | more
        · have outer : time ≤ first := Nat.le_trans inner less
          simp [cut, inner, outer, Nat.min_eq_right less]
        · simp [cut, inner, Nat.min_eq_left more]
      · rcases Nat.le_total second first with less | more
        · simp [cut, inner, less]
        · have outer : ¬ time ≤ first := fun early => inner (Nat.le_trans early more)
          by_cases same : second ≤ first
          · simp [cut, inner, same]
          · simp [cut, inner, outer, same, Nat.min_eq_left more]

theorem pos_of_cut {limit : Nat} (outcome : Outcome) (positive : 0 < limit)
    (takesTime : ∀ time response, outcome = some (time, response) → 0 < time)
    (time : Nat) (response : Response) (ended : outcome.cut limit = some (time, response)) :
    0 < time := by
  by_cases inTime : outcome.within limit = true
  · rw [cut_of_within inTime] at ended
    exact takesTime time response ended
  · rw [cut_of_not_within inTime] at ended
    obtain ⟨rfl, _⟩ := Prod.mk.inj (Option.some.inj ended)
    exact positive

/-- The first timer of a limited answer is that of what is cut off. -/
theorem earlier_cut (outcome : Outcome) (start : Instant) (limit : Nat) :
    Pending.earlier (some (start + limit)) (outcome.map (start + ·.1)) =
      (outcome.cut limit).map (start + ·.1) := by
  cases outcome with
  | none => rfl
  | some ending =>
      obtain ⟨time, response⟩ := ending
      by_cases early : time ≤ limit
      · simp [Pending.earlier, cut, early]
      · have late : min limit time = limit := Nat.min_eq_left (Nat.le_of_not_le early)
        simp [Pending.earlier, cut, early, late]

end Outcome

/-- A handler answers a request with `response`, `time` after the job is polled for the first
time.  Until then every poll finds the job pending, and the job knows when to be polled
again; without a `time` it is pending for good. -/
def Backend.Takes (backend : Backend α φ σ) (handler : α) (request : Request) (shared : σ)
    (time : Option Nat) (response : Response) : Prop :=
  ∀ now,
    match backend.poll (backend.start handler request shared).1 now
        (backend.start handler request shared).2 with
    | (.ready given, _) => time = some 0 ∧ given = response
    | (.pending left, after) =>
        time ≠ some 0 ∧ backend.wake left = time.map (now + ·) ∧
          ∀ later, now ≤ later →
            match backend.poll left later after with
            | (.ready given, _) => (∃ length ∈ time, now + length ≤ later) ∧ given = response
            | (.pending _, _) => ∀ length ∈ time, later < now + length

namespace Pending

/-- An answer that was polled first at the instant `start` is there when its time is over and
not earlier; the futures that complete then add `observed`. -/
structure Due (backend : Backend α φ σ) (start : Instant) (outcome : Outcome)
    (observed : List Observation) (left : Pending φ) (world : World σ) : Prop where
  waits : ∀ later, world.now ≤ later →
    (∀ time response, outcome = some (time, response) → later < start + time) →
    ∃ rest after, left.poll backend (world.reach later) = (.pending rest, after) ∧
      after.now = later ∧ after.ledger.observations = world.ledger.observations
  ends : ∀ time response, outcome = some (time, response) →
    ∃ after, left.poll backend (world.reach (start + time)) = (.ready response, after) ∧
      after.now = start + time ∧
      after.ledger.observations = observed ++ world.ledger.observations

/-- An answer has an outcome if it is polled from now on. -/
inductive Takes (backend : Backend α φ σ) :
    Outcome → List Observation → Pending φ → World σ → Prop
  | atOnce {response : Response} {observed : List Observation} {pending : Pending φ}
      {world after : World σ} :
      pending.poll backend world = (.ready response, after) →
      after.now = world.now →
      after.ledger.observations = observed ++ world.ledger.observations →
      Takes backend (some (0, response)) observed pending world
  | later {outcome : Outcome} {observed : List Observation} {pending left : Pending φ}
      {world after : World σ} :
      (∀ time response, outcome = some (time, response) → 0 < time) →
      pending.poll backend world = (.pending left, after) →
      after.now = world.now →
      after.ledger.observations = world.ledger.observations →
      left.wake backend = outcome.map (world.now + ·.1) →
      left.Due backend world.now outcome observed after →
      Takes backend outcome observed pending world

theorem now_abandon (backend : Backend α φ σ) (pending : Pending φ) (world : World σ) :
    (pending.abandon backend world).now = world.now := by
  induction pending generalizing world with
  | job own => rfl
  | done response => rfl
  | bounded limit since inner inductionHypothesis => exact inductionHypothesis world
  | counted method template inner inductionHypothesis => exact inductionHypothesis world
  | altered change inner inductionHypothesis => exact inductionHypothesis world

/-! ## Answers without decorations -/

theorem takes_done (backend : Backend α φ σ) (response : Response) (world : World σ) :
    (Pending.done response).Takes backend (some (0, response)) [] world :=
  Takes.atOnce rfl rfl rfl

/-- What a job shows from its second poll on. -/
theorem due_job {backend : Backend α φ σ} {left : φ} {world : World σ} {start : Instant}
    {time : Option Nat} {response : Response} (begun : start = world.now)
    (again : ∀ later, start ≤ later →
      match backend.poll left later world.shared with
      | (.ready given, _) => (∃ length ∈ time, start + length ≤ later) ∧ given = response
      | (.pending _, _) => ∀ length ∈ time, later < start + length) :
    (Pending.job left).Due backend start (time.map (·, response)) [] world := by
  subst begun
  have clock : ∀ {later}, world.now ≤ later → max world.now later = later := Nat.max_eq_right
  constructor
  · intro later reached early
    have second := again later reached
    cases repeated : backend.poll left later world.shared with
    | mk shown next =>
        rw [repeated] at second
        cases shown with
        | ready given =>
            obtain ⟨⟨length, known, passed⟩, _⟩ := second
            have still : later < world.now + length :=
              early length response (Option.map_eq_some_iff.mpr ⟨length, known, rfl⟩)
            exact absurd still (Nat.not_lt.mpr passed)
        | pending rest =>
            refine ⟨.job rest, { world with now := later, shared := next }, ?_, rfl, rfl⟩
            simp [poll, World.reach, clock reached, repeated, Polled.map]
  · intro length given ended
    obtain ⟨own, known, same⟩ := Option.map_eq_some_iff.mp ended
    obtain ⟨rfl, rfl⟩ := Prod.mk.inj same
    have reached : world.now ≤ world.now + own := Nat.le_add_right _ _
    have second := again (world.now + own) reached
    cases repeated : backend.poll left (world.now + own) world.shared with
    | mk shown next =>
        rw [repeated] at second
        cases shown with
        | ready given =>
            obtain ⟨_, rfl⟩ := second
            refine ⟨{ world with now := world.now + own, shared := next }, ?_, rfl, rfl⟩
            simp [poll, World.reach, repeated, Polled.map]
        | pending rest => exact absurd (second own known) (Nat.lt_irrefl _)

theorem takes_job {backend : Backend α φ σ} {handler : α} {request : Request} {world : World σ}
    {time : Option Nat} {response : Response}
    (takes : backend.Takes handler request world.shared time response) :
    (Pending.job (backend.start handler request world.shared).1).Takes backend
      (time.map (·, response)) []
      { world with shared := (backend.start handler request world.shared).2 } := by
  have first := takes world.now
  cases polled : backend.poll (backend.start handler request world.shared).1 world.now
      (backend.start handler request world.shared).2 with
  | mk result shared =>
      rw [polled] at first
      cases result with
      | ready given =>
          obtain ⟨rfl, rfl⟩ := first
          have answered : (Pending.job (backend.start handler request world.shared).1).poll backend
              { world with shared := (backend.start handler request world.shared).2 } =
                (.ready given, { world with shared }) := by
            simp [poll, polled, Polled.map]
          exact Takes.atOnce answered rfl rfl
      | pending left =>
          obtain ⟨positive, wakes, again⟩ := first
          have waiting : (Pending.job (backend.start handler request world.shared).1).poll backend
              { world with shared := (backend.start handler request world.shared).2 } =
                (.pending (.job left), { world with shared }) := by
            simp [poll, polled, Polled.map]
          refine Takes.later ?_ waiting rfl rfl ?_ (due_job rfl again)
          · rintro length given ended
            obtain ⟨_, known, same⟩ := Option.map_eq_some_iff.mp ended
            obtain ⟨rfl, _⟩ := Prod.mk.inj same
            apply Nat.pos_of_ne_zero
            rintro rfl
            exact positive known
          · simp [wake, wakes, Function.comp_def]

/-! ## Decorations -/

theorem due_bounded {backend : Backend α φ σ} {start : Instant} {limit : Duration}
    {outcome : Outcome} {observed : List Observation} {inner : Pending φ} {world : World σ}
    (begun : start = world.now) (due : inner.Due backend start outcome observed world) :
    (Pending.bounded limit (some start) inner).Due backend start (outcome.cut limit.nanos)
      (if outcome.within limit.nanos then observed else []) world := by
  constructor
  · intro later reached early
    obtain ⟨time, response, ended, bounded, sooner⟩ := outcome.exists_cut limit.nanos
    have before : later < start + time := early time response ended
    have waiting : ∀ length given, outcome = some (length, given) → later < start + length := by
      intro length given inside
      have earlier := sooner length given inside
      exact Nat.lt_of_lt_of_le before (Nat.add_le_add_left earlier start)
    obtain ⟨rest, after, polled, clock, counted⟩ := due.waits later reached waiting
    have running : ¬ start + limit.nanos ≤ after.now := by
      rw [clock]
      exact Nat.not_le.mpr (Nat.lt_of_lt_of_le before (Nat.add_le_add_left bounded start))
    refine ⟨.bounded limit (some start) rest, after, ?_, clock, counted⟩
    simp [poll, polled, running]
  · intro time response ended
    by_cases inTime : outcome.within limit.nanos = true
    · rw [outcome.cut_of_within inTime] at ended
      obtain ⟨after, polled, clock, counted⟩ := due.ends time response ended
      refine ⟨after, ?_, clock, ?_⟩
      · simp [poll, polled]
      · rw [if_pos inTime, counted]
    · rw [outcome.cut_of_not_within inTime] at ended
      obtain ⟨rfl, rfl⟩ := Prod.mk.inj (Option.some.inj ended)
      have reached : world.now ≤ start + limit.nanos := begun ▸ Nat.le_add_right _ _
      have waiting : ∀ length given, outcome = some (length, given) →
          start + limit.nanos < start + length := by
        rintro length given rfl
        have longer : limit.nanos < length := by simpa [Outcome.within] using inTime
        exact Nat.add_lt_add_left longer start
      obtain ⟨rest, after, polled, clock, counted⟩ := due.waits _ reached waiting
      have passed : start + limit.nanos ≤ after.now := clock ▸ Nat.le_refl _
      refine ⟨rest.abandon backend after, ?_, ?_, ?_⟩
      · simp [poll, polled, passed]
      · rw [now_abandon, clock]
      · rw [observations_abandon, counted, if_neg inTime, List.nil_append]

/-- A limit is met by what takes no longer, and cuts everything else off. -/
theorem takes_bounded {backend : Backend α φ σ} {limit : Duration} {outcome : Outcome}
    {observed : List Observation} {inner : Pending φ} {world : World σ}
    (positive : 0 < limit.nanos) (takes : inner.Takes backend outcome observed world) :
    (Pending.bounded limit none inner).Takes backend (outcome.cut limit.nanos)
      (if outcome.within limit.nanos then observed else []) world := by
  cases takes with
  | @atOnce response _ _ _ after ready clock counted =>
      have inTime : Outcome.within limit.nanos (some (0, response)) = true := by
        simp [Outcome.within]
      rw [Outcome.cut_of_within inTime, if_pos inTime]
      have early : (Pending.bounded limit none inner).poll backend world =
          (.ready response, after) := by
        simp [poll, ready]
      exact Takes.atOnce early clock counted
  | @later _ _ _ left _ after takesTime polled clock counted wakes due =>
      have running : ¬ world.now + limit.nanos ≤ after.now := by
        rw [clock]
        exact Nat.not_le.mpr (Nat.lt_add_of_pos_right positive)
      have begun : (Pending.bounded limit none inner).poll backend world =
          (.pending (.bounded limit (some world.now) left), after) := by
        simp [poll, polled, running]
      have takesTimeToo := outcome.pos_of_cut positive takesTime
      refine Takes.later takesTimeToo begun clock counted ?_ (due_bounded clock.symm due)
      rw [wake, wakes]
      exact outcome.earlier_cut world.now limit.nanos

/-- What is counted takes as long as before and is observed once more. -/
theorem due_counted {backend : Backend α φ σ} {start : Instant} {method template : String}
    {outcome : Outcome} {observed : List Observation} {inner : Pending φ} {world : World σ}
    (due : inner.Due backend start outcome observed world) :
    (Pending.counted method template inner).Due backend start outcome
      (outcome.toList.map (fun ending => ⟨ending.2.status, method, template⟩) ++ observed)
      world := by
  constructor
  · intro later reached early
    obtain ⟨rest, after, polled, clock, counted⟩ := due.waits later reached early
    refine ⟨.counted method template rest, after, ?_, clock, counted⟩
    simp [poll, polled]
  · intro time response ended
    obtain ⟨after, polled, clock, counted⟩ := due.ends time response ended
    let observation : Observation := ⟨response.status, method, template⟩
    refine ⟨{ after with ledger := (after.ledger.leave template).observe observation }, ?_, clock,
      ?_⟩
    · simp only [poll, polled, observation]
    · simp [Ledger.observe, Ledger.leave, counted, ended, observation]

theorem takes_counted {backend : Backend α φ σ} {method template : String}
    {outcome : Outcome} {observed : List Observation} {inner : Pending φ} {world : World σ}
    (takes : inner.Takes backend outcome observed world) :
    (Pending.counted method template inner).Takes backend outcome
      (outcome.toList.map (fun ending => ⟨ending.2.status, method, template⟩) ++ observed)
      world := by
  cases takes with
  | @atOnce response _ _ _ after ready clock counted =>
      apply Takes.atOnce
      · simp only [poll, ready]
        rfl
      · exact clock
      · simp [Ledger.observe, Ledger.leave, counted]
  | @later _ _ _ left _ after takesTime polled clock counted wakes due =>
      have begun : (Pending.counted method template inner).poll backend world =
          (.pending (.counted method template left), after) := by
        simp [poll, polled]
      exact Takes.later takesTime begun clock counted wakes (due_counted due)

/-! ## Awaiting an answer -/

theorem await_of_takes {backend : Backend α φ σ} {time : Nat} {response : Response}
    {observed : List Observation} {pending : Pending φ} {world : World σ}
    (takes : pending.Takes backend (some (time, response)) observed world) :
    ∃ after, pending.await backend world = (.ready response, after) ∧
      after.now = world.now + time ∧
      after.ledger.observations = observed ++ world.ledger.observations := by
  cases takes with
  | @atOnce _ _ _ _ after ready clock counted =>
      exact ⟨after, by rw [await, ready], clock, counted⟩
  | @later _ _ _ left _ after takesTime polled clock counted wakes due =>
      obtain ⟨last, ready, ending, observations⟩ := due.ends time response rfl
      refine ⟨last, ?_, ending, by rw [observations, counted]⟩
      simp only [await, polled, wakes, Option.map_some, ready]

/-- An answer that never is there stays pending whenever it is polled. -/
theorem await_of_takes_none {backend : Backend α φ σ} {observed : List Observation}
    {pending : Pending φ} {world : World σ} (takes : pending.Takes backend none observed world) :
    ∃ left after, pending.await backend world = (.pending left, after) ∧
      after.now = world.now ∧ after.ledger.observations = world.ledger.observations ∧
      ∀ later, after.now ≤ later → ∃ rest last,
        left.poll backend (after.reach later) = (.pending rest, last) := by
  cases takes with
  | @later _ _ _ left _ after _ polled clock counted wakes due =>
      refine ⟨left, after, ?_, clock, counted, ?_⟩
      · simp only [await, polled, wakes, Option.map_none]
      · intro later reached
        obtain ⟨rest, last, again, _, _⟩ := due.waits later reached
          (fun _ _ impossible => by cases impossible)
        exact ⟨rest, last, again⟩

end Pending

end FunctionGateway
