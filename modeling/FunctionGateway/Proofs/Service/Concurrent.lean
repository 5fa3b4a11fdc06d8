import FunctionGateway.Proofs.Service.Stacking

/-!
# Answers that are awaited beside each other

The jobs of several requests are polled in turn and share a state.  A job that lasts a certain
time whatever the others make of that state gives an answer after a certain time, too, with
layers round it as without.  The answer is told by the service and the outcome of the job;
it does not depend on how often it is polled, as long as it is polled at the moment at which
it is due.
-/

namespace FunctionGateway

open FunctionGateway.Http
open FunctionGateway.Metrics

variable {α φ σ : Type}

/-! ## Outcomes that are not over -/

namespace Outcome

/-- An outcome that counts from `begun` is not over before `now`. -/
def Stands (outcome : Outcome) (begun now : Instant) : Prop :=
  ∀ time response, outcome = some (time, response) → now ≤ begun + time

/-- An outcome that counts from `begun` is still to come at `now`. -/
def Ahead (outcome : Outcome) (begun now : Instant) : Prop :=
  ∀ time response, outcome = some (time, response) → now < begun + time

theorem Ahead.stands {outcome : Outcome} {begun now : Instant}
    (ahead : outcome.Ahead begun now) : outcome.Stands begun now :=
  fun time response ended => Nat.le_of_lt (ahead time response ended)

theorem Stands.of_cut {outcome : Outcome} {limit : Nat} {begun now : Instant}
    (stands : (outcome.cut limit).Stands begun now) :
    outcome.Stands begun now ∧ now ≤ begun + limit := by
  obtain ⟨time, response, ended, bounded, sooner⟩ := outcome.exists_cut limit
  have reached := stands time response ended
  constructor
  · intro length given inside
    exact Nat.le_trans reached (Nat.add_le_add_left (sooner length given inside) begun)
  · exact Nat.le_trans reached (Nat.add_le_add_left bounded begun)

theorem Ahead.cut {outcome : Outcome} {limit : Nat} {begun now : Instant}
    (ahead : outcome.Ahead begun now) (running : now < begun + limit) :
    (outcome.cut limit).Ahead begun now := by
  intro time response ended
  by_cases inTime : outcome.within limit = true
  · rw [outcome.cut_of_within inTime] at ended
    exact ahead time response ended
  · rw [outcome.cut_of_not_within inTime] at ended
    obtain ⟨rfl, _⟩ := Prod.mk.inj (Option.some.inj ended)
    exact running

/-- Where nothing is there when the limit is over, the limit decides. -/
theorem Ahead.cut_eq {outcome : Outcome} {limit : Nat} {begun : Instant}
    (ahead : outcome.Ahead begun (begun + limit)) :
    outcome.cut limit = some (limit, deadlineExceeded) := by
  refine outcome.cut_of_not_within fun inTime => ?_
  cases outcome with
  | none => cases inTime
  | some ending =>
      have early : ending.1 ≤ limit := of_decide_eq_true inTime
      have late := ahead ending.1 ending.2 rfl
      exact absurd (Nat.add_le_add_left early begun) (Nat.not_le.mpr late)

theorem within_of_le {limit time : Nat} {response : Response} (early : time ≤ limit) :
    Outcome.within limit (some (time, response)) = true :=
  decide_eq_true early

/-- An outcome with another response at the same time. -/
def change (alter : Response → Response) (outcome : Outcome) : Outcome :=
  outcome.map fun ending => (ending.1, alter ending.2)

theorem change_eq_some_iff {alter : Response → Response} {outcome : Outcome} {time : Nat}
    {response : Response} :
    outcome.change alter = some (time, response) ↔
      ∃ early, outcome = some (time, early) ∧ alter early = response := by
  rw [change, Option.map_eq_some_iff]
  constructor
  · rintro ⟨⟨length, early⟩, rfl, same⟩
    obtain ⟨rfl, rfl⟩ := Prod.mk.inj same
    exact ⟨early, rfl, rfl⟩
  · rintro ⟨early, rfl, rfl⟩
    exact ⟨(time, early), rfl, rfl⟩

theorem Ahead.change {outcome : Outcome} {begun now : Instant}
    (ahead : outcome.Ahead begun now) (alter : Response → Response) :
    (outcome.change alter).Ahead begun now := by
  intro time response ended
  obtain ⟨early, inside, _⟩ := change_eq_some_iff.mp ended
  exact ahead time early inside

end Outcome

/-! ## Jobs beside each other -/

/-- A job that was first polled at `begun` is ready with its outcome when the time of the outcome is
over, and not before, and it knows that moment.  The other jobs have no part in this, whatever
they make of the shared state. -/
def Backend.Runs (backend : Backend α φ σ) (begun : Instant) (outcome : Outcome) (job : φ) :
    Prop :=
  ∃ holds : φ → Prop, holds job ∧ ∀ left, holds left →
    backend.wake left = outcome.map (begun + ·.1) ∧
      ∀ now shared, begun ≤ now → outcome.Stands begun now →
        match backend.poll left now shared with
        | (.ready given, _) => ∃ time, outcome = some (time, given) ∧ now = begun + time
        | (.pending rest, _) => outcome.Ahead begun now ∧ holds rest

/-- The job that a handler starts has an outcome, which counts from its first poll. -/
def Backend.Lasts (backend : Backend α φ σ) (handler : α) (request : Request) (shared : σ)
    (outcome : Outcome) : Prop :=
  ∀ now,
    match backend.poll (backend.start handler request shared).1 now
        (backend.start handler request shared).2 with
    | (.ready given, _) => outcome = some (0, given)
    | (.pending left, _) => outcome.Ahead now now ∧ backend.Runs now outcome left

/-- A running job has one outcome. -/
theorem Backend.Runs.unique {backend : Backend α φ σ} {begun : Instant} {first second : Outcome}
    {job : φ} (one : backend.Runs begun first job) (other : backend.Runs begun second job)
    (shared : σ) : first = second := by
  obtain ⟨_, holds, each⟩ := one
  obtain ⟨_, holdsToo, eachToo⟩ := other
  have asked := (each job holds).1.symm.trans (eachToo job holdsToo).1
  cases first with
  | none =>
      cases second with
      | none => rfl
      | some ending => cases asked
  | some ending =>
      cases second with
      | none => cases asked
      | some otherEnding =>
          have sameTime : ending.1 = otherEnding.1 := Nat.add_left_cancel (Option.some.inj asked)
          -- Polled when it is due, the job shows the answer of both.
          have due := (each job holds).2 (begun + ending.1) shared (Nat.le_add_right _ _)
            (by rintro _ _ ⟨⟩; exact Nat.le_refl _)
          have dueToo := (eachToo job holdsToo).2 (begun + ending.1) shared (Nat.le_add_right _ _)
            (by rintro _ _ ⟨⟩; exact Nat.le_of_eq (congrArg (begun + ·) sameTime))
          cases polled : backend.poll job (begun + ending.1) shared with
          | mk shown after =>
              rw [polled] at due dueToo
              cases shown with
              | pending left => exact absurd (due.1 _ _ rfl) (Nat.lt_irrefl _)
              | ready given =>
                  obtain ⟨_, ⟨⟩, _⟩ := due
                  obtain ⟨_, ⟨⟩, _⟩ := dueToo
                  exact congrArg (fun time => some (time, given)) sameTime

/-- A job that a handler starts has one outcome. -/
theorem Backend.Lasts.unique {backend : Backend α φ σ} {handler : α} {request : Request}
    {shared : σ} {first second : Outcome} (one : backend.Lasts handler request shared first)
    (other : backend.Lasts handler request shared second) : first = second := by
  have left := one 0
  have right := other 0
  cases polled : backend.poll (backend.start handler request shared).1 0
      (backend.start handler request shared).2 with
  | mk shown after =>
      rw [polled] at left right
      cases shown with
      | ready given => exact left.trans right.symm
      | pending rest => exact left.2.unique right.2 after

/-- Every job takes its own time, or never is ready, beside any other jobs. -/
def Backend.Steady (backend : Backend α φ σ) : Prop :=
  ∀ handler request shared, ∃ outcome, backend.Lasts handler request shared outcome

/-! ## Services -/

/-- What a service gives for a request, a certain time after the request is handed to it.  A service
that asks a handler gives the outcome of some job of the handler, and the exposition shows
some state of the ledger. -/
inductive Service.Yields (backend : Backend α φ σ) (request : Request) :
    Service α → Outcome → Prop
  | handler (own : α) (shared : σ) (outcome : Outcome) :
      backend.Lasts own request shared outcome →
      Yields backend request (.handler own) outcome
  | answer (response : Response) : Yields backend request (.answer response) (some (0, response))
  | exposition (ledger : Ledger) :
      Yields backend request .exposition (some (0, ledger.exposition))
  | rejected (credentials : Credentials) (inner : Service α) :
      credentials.accept request = false →
      Yields backend request (.guarded credentials inner) (some (0, unauthorized))
  | accepted (credentials : Credentials) (inner : Service α) (outcome : Outcome) :
      credentials.accept request = true →
      Yields backend request inner outcome →
      Yields backend request (.guarded credentials inner) outcome
  | bounded (limit : Duration) (inner : Service α) (outcome : Outcome) :
      Yields backend request inner outcome →
      Yields backend request (.bounded limit inner) (outcome.cut limit.nanos)
  | counted (template : String) (inner : Service α) (outcome : Outcome) :
      Yields backend request inner outcome →
      Yields backend request (.counted template inner) outcome
  | altered (alter : Response → Response) (inner : Service α) (outcome : Outcome) :
      Yields backend request inner outcome →
      Yields backend request (.altered alter inner) (outcome.change alter)

namespace Pending

theorem now_poll (backend : Backend α φ σ) (pending : Pending φ) (world : World σ) :
    (pending.poll backend world).2.now = world.now := by
  induction pending generalizing world with
  | job own => rfl
  | done response => rfl
  | bounded limit since inner inductionHypothesis =>
      have inside := inductionHypothesis world
      simp only [poll]
      split
      · rename_i polled
        simpa only [polled] using inside
      · rename_i polled
        split
        · rw [now_abandon]
          simpa only [polled] using inside
        · simpa only [polled] using inside
  | counted method template inner inductionHypothesis =>
      have inside := inductionHypothesis world
      simp only [poll]
      split <;> rename_i polled <;> simpa only [polled] using inside
  | altered alter inner inductionHypothesis =>
      have inside := inductionHypothesis world
      simp only [poll]
      split <;> rename_i polled <;> simpa only [polled] using inside

/-- An answer that was first polled at `begun`, and is not ready, has an outcome. -/
inductive Ends (backend : Backend α φ σ) (begun : Instant) : Outcome → Pending φ → Prop
  | job (outcome : Outcome) (own : φ) :
      backend.Runs begun outcome own →
      Ends backend begun outcome (.job own)
  | bounded (limit : Duration) (outcome : Outcome) (inner : Pending φ) :
      Ends backend begun outcome inner →
      Ends backend begun (outcome.cut limit.nanos) (.bounded limit (some begun) inner)
  | counted (method template : String) (outcome : Outcome) (inner : Pending φ) :
      Ends backend begun outcome inner →
      Ends backend begun outcome (.counted method template inner)
  | altered (alter : Response → Response) (outcome : Outcome) (inner : Pending φ) :
      Ends backend begun outcome inner →
      Ends backend begun (outcome.change alter) (.altered alter inner)

variable {backend : Backend α φ σ} {begun : Instant} {outcome : Outcome} {pending : Pending φ}

/-- An answer knows when it is due. -/
theorem Ends.wake (ends : pending.Ends backend begun outcome) :
    pending.wake backend = outcome.map (begun + ·.1) := by
  induction ends with
  | job outcome own runs =>
      obtain ⟨holds, now, each⟩ := runs
      exact (each own now).1
  | bounded limit outcome inner _ inductionHypothesis =>
      rw [Pending.wake, inductionHypothesis]
      exact outcome.earlier_cut begun limit.nanos
  | counted method template outcome inner _ inductionHypothesis => exact inductionHypothesis
  | altered alter outcome inner _ inductionHypothesis =>
      rw [Pending.wake, inductionHypothesis, Outcome.change, Option.map_map]
      rfl

/-- A poll that comes no later than the answer is due shows it exactly when it is due. -/
theorem Ends.poll (ends : pending.Ends backend begun outcome) {world after : World σ}
    (reached : begun ≤ world.now) (stands : outcome.Stands begun world.now)
    {shown : Polled (Pending φ)} (polled : pending.poll backend world = (shown, after)) :
    match shown with
    | .ready given => ∃ time, outcome = some (time, given) ∧ world.now = begun + time
    | .pending left => outcome.Ahead begun world.now ∧ left.Ends backend begun outcome := by
  induction ends generalizing shown after with
  | job outcome own runs =>
      obtain ⟨holds, now, each⟩ := runs
      have told := (each own now).2 world.now world.shared reached stands
      cases seen : backend.poll own world.now world.shared with
      | mk result shared =>
          rw [seen] at told
          simp only [Pending.poll, seen, Prod.mk.injEq] at polled
          obtain ⟨rfl, _⟩ := polled
          cases result with
          | ready given => exact told
          | pending rest => exact ⟨told.1, Ends.job outcome rest ⟨holds, told.2, each⟩⟩
  | bounded limit outcome inner _ inductionHypothesis =>
      obtain ⟨standsInside, inTime⟩ := stands.of_cut
      cases shown with
      | ready response =>
          rcases poll_bounded_eq_ready polled with inside | ⟨left, next, inside, late, rfl, _⟩
          · obtain ⟨time, ended, due⟩ := inductionHypothesis standsInside inside
            refine ⟨time, ?_, due⟩
            rw [due] at inTime
            rw [ended, Outcome.cut_of_within (Outcome.within_of_le (Nat.le_of_add_le_add_left inTime))]
          · obtain ⟨ahead, _⟩ := inductionHypothesis standsInside inside
            have clock : next.now = world.now := by
              have unmoved := now_poll backend inner world
              rwa [inside] at unmoved
            rw [clock] at late
            have due : world.now = begun + limit.nanos := Nat.le_antisymm inTime late
            refine ⟨limit.nanos, ?_, due⟩
            rw [due] at ahead
            exact ahead.cut_eq
      | pending left =>
          obtain ⟨rest, inside, early, rfl⟩ := poll_bounded_eq_pending polled
          obtain ⟨ahead, ends⟩ := inductionHypothesis standsInside inside
          have clock : after.now = world.now := by
            have unmoved := now_poll backend inner world
            rwa [inside] at unmoved
          rw [clock] at early
          exact ⟨ahead.cut (Nat.not_le.mp early), Ends.bounded limit outcome rest ends⟩
  | counted method template outcome inner _ inductionHypothesis =>
      cases shown with
      | ready response =>
          obtain ⟨next, inside, _⟩ := poll_counted_eq_ready polled
          exact inductionHypothesis stands inside
      | pending left =>
          obtain ⟨rest, inside, rfl⟩ := poll_counted_eq_pending polled
          obtain ⟨ahead, ends⟩ := inductionHypothesis stands inside
          exact ⟨ahead, Ends.counted method template outcome rest ends⟩
  | altered alter outcome inner _ inductionHypothesis =>
      have standsInside : outcome.Stands begun world.now := by
        intro time response ended
        exact stands time (alter response) (Outcome.change_eq_some_iff.mpr ⟨response, ended, rfl⟩)
      cases shown with
      | ready response =>
          obtain ⟨early, inside, rfl⟩ := poll_altered_eq_ready polled
          obtain ⟨time, ended, due⟩ := inductionHypothesis standsInside inside
          exact ⟨time, Outcome.change_eq_some_iff.mpr ⟨early, ended, rfl⟩, due⟩
      | pending left =>
          obtain ⟨rest, inside, rfl⟩ := poll_altered_eq_pending polled
          obtain ⟨ahead, ends⟩ := inductionHypothesis standsInside inside
          exact ⟨ahead.change alter, Ends.altered alter outcome rest ends⟩

/-- What the first poll of an answer shows, at the moment at which it was asked for. -/
def Opens (backend : Backend α φ σ) (outcome : Outcome) (pending : Pending φ)
    (world : World σ) : Prop :=
  match (pending.poll backend world).1 with
  | .ready given => outcome = some (0, given)
  | .pending left => outcome.Ahead world.now world.now ∧ left.Ends backend world.now outcome

theorem Opens.counted {outcome : Outcome} {pending : Pending φ} {world : World σ}
    (opens : pending.Opens backend outcome world) (method template : String) :
    (Pending.counted method template pending).Opens backend outcome world := by
  rw [Opens] at opens ⊢
  cases polled : pending.poll backend world with
  | mk shown after =>
      rw [polled] at opens
      cases shown with
      | ready given =>
          simp only [Pending.poll, polled]
          exact opens
      | pending left =>
          simp only [Pending.poll, polled]
          exact ⟨opens.1, Ends.counted method template outcome left opens.2⟩

theorem Opens.altered {outcome : Outcome} {pending : Pending φ} {world : World σ}
    (opens : pending.Opens backend outcome world) (alter : Response → Response) :
    (Pending.altered alter pending).Opens backend (outcome.change alter) world := by
  rw [Opens] at opens ⊢
  cases polled : pending.poll backend world with
  | mk shown after =>
      rw [polled] at opens
      cases shown with
      | ready given =>
          simp only [Pending.poll, polled]
          exact Outcome.change_eq_some_iff.mpr ⟨given, opens, rfl⟩
      | pending left =>
          simp only [Pending.poll, polled]
          exact ⟨opens.1.change alter, Ends.altered alter outcome left opens.2⟩

/-- A limit runs from the first poll. -/
theorem Opens.bounded {outcome : Outcome} {pending : Pending φ} {world : World σ}
    (opens : pending.Opens backend outcome world) (limit : Duration) :
    (Pending.bounded limit none pending).Opens backend (outcome.cut limit.nanos) world := by
  rw [Opens] at opens ⊢
  have clock := now_poll backend pending world
  cases polled : pending.poll backend world with
  | mk shown after =>
      rw [polled] at opens clock
      cases shown with
      | ready given =>
          simp only [Pending.poll, polled]
          rw [(opens : outcome = some (0, given))]
          exact Outcome.cut_of_within (Outcome.within_of_le (Nat.zero_le _))
      | pending left =>
          obtain ⟨ahead, ends⟩ := opens
          by_cases past : world.now + limit.nanos ≤ after.now
          · simp only [Pending.poll, polled, Option.getD_none, if_pos past]
            have none : limit.nanos = 0 := by
              rw [clock] at past
              exact Nat.le_zero.mp (Nat.le_of_add_le_add_left past)
            rw [none]
            exact Outcome.Ahead.cut_eq ahead
          · simp only [Pending.poll, polled, Option.getD_none, if_neg past]
            rw [clock] at past
            exact ⟨ahead.cut (Nat.not_le.mp past), Ends.bounded limit outcome left ends⟩

end Pending

/-- Beside any other requests a service yields an outcome, and the first poll shows it. -/
theorem Service.exists_yields {backend : Backend α φ σ} (steady : backend.Steady)
    (service : Service α) (request : Request) (world : World σ) :
    ∃ outcome, service.Yields backend request outcome ∧
      (service.call backend request world).1.Opens backend outcome
        (service.call backend request world).2 := by
  induction service generalizing world with
  | handler own =>
      obtain ⟨outcome, lasts⟩ := steady own request world.shared
      refine ⟨outcome, Yields.handler own world.shared outcome lasts, ?_⟩
      have first := lasts world.now
      cases polled : backend.poll (backend.start own request world.shared).1 world.now
          (backend.start own request world.shared).2 with
      | mk shown after =>
          rw [polled] at first
          simp only [Service.call, Pending.Opens, Pending.poll, polled]
          cases shown with
          | ready given => exact first
          | pending left => exact ⟨first.1, Pending.Ends.job outcome left first.2⟩
  | answer response => exact ⟨_, Yields.answer response, rfl⟩
  | exposition => exact ⟨_, Yields.exposition world.ledger, rfl⟩
  | guarded credentials inner inductionHypothesis =>
      by_cases accepted : credentials.accept request = true
      · obtain ⟨outcome, yields, opens⟩ := inductionHypothesis world
        refine ⟨outcome, Yields.accepted credentials inner outcome accepted yields, ?_⟩
        simp only [Service.call, if_pos accepted]
        exact opens
      · have refused : credentials.accept request = false := Bool.eq_false_iff.mpr accepted
        refine ⟨_, Yields.rejected credentials inner refused, ?_⟩
        simp only [Service.call, if_neg accepted]
        rfl
  | bounded limit inner inductionHypothesis =>
      obtain ⟨outcome, yields, opens⟩ := inductionHypothesis world
      exact ⟨_, Yields.bounded limit inner outcome yields, opens.bounded limit⟩
  | counted template inner inductionHypothesis =>
      obtain ⟨outcome, yields, opens⟩ :=
        inductionHypothesis { world with ledger := world.ledger.enter template }
      exact ⟨outcome, Yields.counted template inner outcome yields, opens.counted _ template⟩
  | altered alter inner inductionHypothesis =>
      obtain ⟨outcome, yields, opens⟩ := inductionHypothesis world
      exact ⟨_, Yields.altered alter inner outcome yields, opens.altered alter⟩

end FunctionGateway
