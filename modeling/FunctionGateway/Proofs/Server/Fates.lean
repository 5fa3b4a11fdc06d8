import FunctionGateway.Proofs.Service.Concurrent
import FunctionGateway.Proofs.Surface.Session
import FunctionGateway.Server.Connection

/-!
# When a request is answered

When and how a request is answered follows from how its body is delivered and from the outcome
of the service that it is dispatched to, whatever else the server has to do.  A connection
that is polled whenever it asks to be, and at any other moments, keeps to this.
-/

namespace FunctionGateway

open FunctionGateway.Http

variable {α φ σ : Type}

/-- When an answer is there, and the answer; nothing if it never is. -/
abbrev Ending := Option (Instant × Response)

/-- The ending of an outcome that counts from an instant. -/
def Outcome.startingAt (begun : Instant) (outcome : Outcome) : Ending :=
  outcome.map fun ending => (begun + ending.1, ending.2)

/-- The delivery of a body ends no later than the read timeout. -/
def Incoming.inTime (readTimeout : Duration) (incoming : Incoming) : Bool :=
  incoming.delivery.instant?.any fun arrival =>
    (limitEnd readTimeout incoming.since).all (arrival ≤ ·)

/-- The body of a request is awaited: of its end and the read timeout neither was due before now. -/
structure Incoming.Awaited (readTimeout : Duration) (incoming : Incoming) (now : Instant) :
    Prop where
  since : incoming.since ≤ now
  due : ∀ instant, Pending.earlier incoming.delivery.instant?
    (limitEnd readTimeout incoming.since) = some instant → now ≤ max incoming.since instant

/-- When and how a request is answered: 408 at the read timeout if its body is late, 400 once
its body breaks off, and otherwise as the service yields it is dispatched to once its body is
there. -/
inductive Fate (backend : Backend α φ σ) (gateway : Gateway α) (incoming : Incoming) :
    Ending → Prop
  | late :
      incoming.inTime gateway.config.readTimeout = false →
      Fate backend gateway incoming
        ((limitEnd gateway.config.readTimeout incoming.since).map
          (·, Response.ofStatus Status.requestTimeout))
  | broken (arrival : Instant) :
      incoming.delivery = .broken arrival →
      incoming.inTime gateway.config.readTimeout = true →
      Fate backend gateway incoming
        (some (max incoming.since arrival, Response.ofStatus Status.badRequest))
  | handled (arrival : Instant) (outcome : Outcome) :
      incoming.delivery = .complete arrival →
      incoming.inTime gateway.config.readTimeout = true →
      (target gateway.router incoming.request).1.Yields backend
        (target gateway.router incoming.request).2 outcome →
      Fate backend gateway incoming (outcome.startingAt (max incoming.since arrival))

/-! ## The end of the body -/

theorem hasCome_iff {instant? : Option Instant} {now : Instant} :
    hasCome instant? now = true ↔ ∃ instant, instant? = some instant ∧ instant ≤ now := by
  cases instant? with
  | none => simp [hasCome]
  | some instant => simp [hasCome]

theorem lt_limitEnd {limit : Duration} {since ending : Instant}
    (limited : limitEnd limit since = some ending) : since < ending := by
  rw [limitEnd] at limited
  split at limited
  · cases limited
  · rename_i positive
    obtain rfl := Option.some.inj limited
    have nonzero : limit.nanos ≠ 0 := by simpa [Duration.isZero] using positive
    exact Nat.lt_add_of_pos_right (Nat.pos_of_ne_zero nonzero)

namespace Pending

theorem earlier_le_left {first second : Option Instant} {instant : Instant}
    (there : first = some instant) :
    ∃ least, earlier first second = some least ∧ least ≤ instant := by
  subst there
  cases second with
  | none => exact ⟨instant, rfl, Nat.le_refl _⟩
  | some other => exact ⟨min instant other, rfl, Nat.min_le_left _ _⟩

theorem earlier_le_right {first second : Option Instant} {instant : Instant}
    (there : second = some instant) :
    ∃ least, earlier first second = some least ∧ least ≤ instant := by
  subst there
  cases first with
  | none => exact ⟨instant, rfl, Nat.le_refl _⟩
  | some other => exact ⟨min other instant, rfl, Nat.min_le_right _ _⟩

theorem earlier_cases {first second : Option Instant} {least : Instant}
    (found : earlier first second = some least) : first = some least ∨ second = some least := by
  cases first with
  | none => exact Or.inr found
  | some left =>
      cases second with
      | none => exact Or.inl found
      | some right =>
          have same : min left right = least := Option.some.inj found
          rcases Nat.le_total left right with less | more
          · rw [Nat.min_eq_left less] at same
            exact Or.inl (congrArg some same)
          · rw [Nat.min_eq_right more] at same
            exact Or.inr (congrArg some same)

theorem earlier_eq_none_iff {first second : Option Instant} :
    earlier first second = none ↔ first = none ∧ second = none := by
  cases first <;> cases second <;> simp [earlier]

end Pending

namespace Connection

/-! ## Connections that keep to an ending -/

/-- A connection whose ending is settled: it has come, or it is what the pending answer comes
to. -/
inductive Follows (backend : Backend α φ σ) (now : Instant) : Ending → Connection φ → Prop
  | handling (begun : Instant) (outcome : Outcome) (pending : Pending φ) :
      pending.Ends backend begun outcome →
      begun ≤ now →
      outcome.Stands begun now →
      Follows backend now (outcome.startingAt begun) (.handling pending)
  | answered (instant : Instant) (response : Response) :
      instant ≤ now →
      Follows backend now (some (instant, response)) (.answered instant response)

/-- How many times a connection can still move on. -/
def rank : Connection φ → Nat
  | receiving _ => 2
  | handling _ => 1
  | answered _ _ => 0
  | aborted => 0

/-- A connection that does not ask to be polled at once. -/
def Waits (backend : Backend α φ σ) (gateway : Gateway α) (now : Instant)
    (connection : Connection φ) : Prop :=
  ∀ instant, connection.wake backend gateway = some instant → now < instant

variable {backend : Backend α φ σ} {gateway : Gateway α}

theorem now_pollPending (backend : Backend α φ σ) (pending : Pending φ) (world : World σ) :
    (pollPending backend pending world).2.now = world.now := by
  have unmoved := Pending.now_poll backend pending world
  rw [pollPending]
  split <;> rename_i polled <;> simpa only [polled] using unmoved

/-- Polling takes no time. -/
theorem now_poll (backend : Backend α φ σ) (gateway : Gateway α) (connection : Connection φ)
    (world : World σ) : (connection.poll backend gateway world).2.now = world.now := by
  cases connection with
  | receiving incoming =>
      simp only [poll]
      split
      · split
        · rw [now_pollPending, dispatch_eq_call, Service.now_call]
        · rfl
      · split <;> rfl
  | handling pending => exact now_pollPending backend pending world
  | answered instant response => rfl
  | aborted => rfl

theorem waits_startingAt {begun now : Instant} {outcome : Outcome} {pending : Pending φ}
    (ends : pending.Ends backend begun outcome) (ahead : outcome.Ahead begun now) :
    (handling pending : Connection φ).Waits backend gateway now := by
  intro instant due
  have own : pending.wake backend = some instant := due
  rw [ends.wake, Option.map_eq_some_iff] at own
  obtain ⟨⟨time, response⟩, ended, rfl⟩ := own
  exact ahead time response ended

/-- A settled ending comes when it is due, and the connection waits for it until then. -/
theorem Follows.poll {ending : Ending} {connection : Connection φ} {world : World σ}
    (follows : connection.Follows backend world.now ending) :
    (connection.poll backend gateway world).1.Follows backend world.now ending ∧
      (connection.poll backend gateway world).1.Waits backend gateway world.now := by
  cases follows with
  | answered instant response come =>
      exact ⟨Follows.answered instant response come, fun _ due => by cases due⟩
  | handling begun outcome pending ends reached stands =>
      rw [Connection.poll, pollPending]
      cases polled : pending.poll backend world with
      | mk shown after =>
          have told := ends.poll reached stands polled
          cases shown with
          | ready given =>
              obtain ⟨time, ended, due⟩ := told
              have own : outcome.startingAt begun = some (world.now, given) := by
                rw [ended, due]
                rfl
              rw [own]
              exact ⟨Follows.answered _ given (Nat.le_refl _), fun _ due => by cases due⟩
          | pending left =>
              obtain ⟨ahead, still⟩ := told
              exact ⟨Follows.handling begun outcome left still reached ahead.stands,
                waits_startingAt still ahead⟩

/-- Until a connection asks to be polled nothing is missed. -/
theorem Follows.wait {ending : Ending} {connection : Connection φ} {now instant : Instant}
    (follows : connection.Follows backend now ending) (later : now ≤ instant)
    (early : ∀ due, connection.wake backend gateway = some due → instant ≤ due) :
    connection.Follows backend instant ending := by
  cases follows with
  | answered moment response come => exact Follows.answered moment response (Nat.le_trans come later)
  | handling begun outcome pending ends reached stands =>
      refine Follows.handling begun outcome pending ends (Nat.le_trans reached later) ?_
      intro time response ended
      refine early (begun + time) ?_
      rw [wake, ends.wake, ended]
      rfl

/-- A connection is where the request it serves has come to: its body is awaited, or its
ending is settled. -/
inductive Stands (backend : Backend α φ σ) (gateway : Gateway α) (incoming : Incoming)
    (now : Instant) : Connection φ → Prop
  | receiving :
      incoming.Awaited gateway.config.readTimeout now →
      Stands backend gateway incoming now (.receiving incoming)
  | following (ending : Ending) (connection : Connection φ) :
      Fate backend gateway incoming ending →
      connection.Follows backend now ending →
      Stands backend gateway incoming now connection

theorem Stands.wait {incoming : Incoming} {connection : Connection φ} {now instant : Instant}
    (stands : connection.Stands backend gateway incoming now) (later : now ≤ instant)
    (early : ∀ due, connection.wake backend gateway = some due → instant ≤ due) :
    connection.Stands backend gateway incoming instant := by
  cases stands with
  | receiving awaited =>
      refine Stands.receiving ⟨Nat.le_trans awaited.since later, fun due asked => ?_⟩
      exact Nat.le_trans (early due asked) (Nat.le_max_right _ _)
  | following ending connection fate follows =>
      exact Stands.following ending connection fate (follows.wait later early)

theorem Stands.reach {incoming : Incoming} {connection : Connection φ} {world : World σ}
    {instant : Instant} (stands : connection.Stands backend gateway incoming world.now)
    (waits : connection.Waits backend gateway instant) :
    connection.Stands backend gateway incoming (world.reach instant).now := by
  rw [World.reach]
  rcases Nat.le_total world.now instant with early | late
  · rw [Nat.max_eq_right early]
    exact stands.wait early fun due asked => Nat.le_of_lt (waits due asked)
  · rw [Nat.max_eq_left late]
    exact stands

/-- A request that has just come stands at its beginning. -/
theorem stands_receiving (backend : Backend α φ σ) (gateway : Gateway α) (incoming : Incoming) :
    (receiving incoming : Connection φ).Stands backend gateway incoming incoming.since :=
  Stands.receiving ⟨Nat.le_refl _, fun _ _ => Nat.le_max_left _ _⟩

/-! ## Moving on -/

/-- The first poll of the answer to a request settles its ending. -/
theorem follows_of_opens {outcome : Outcome} {pending : Pending φ} {world : World σ}
    (opens : pending.Opens backend outcome world) :
    (pollPending backend pending world).1.Follows backend world.now
        (outcome.startingAt world.now) ∧
      (pollPending backend pending world).1.Waits backend gateway world.now := by
  rw [Pending.Opens] at opens
  rw [pollPending]
  cases polled : pending.poll backend world with
  | mk shown after =>
      rw [polled] at opens
      cases shown with
      | ready given =>
          have own : outcome.startingAt world.now = some (world.now, given) := by
            rw [(opens : outcome = some (0, given))]
            rfl
          rw [own]
          exact ⟨Follows.answered _ given (Nat.le_refl _), fun _ due => by cases due⟩
      | pending left =>
          obtain ⟨ahead, ends⟩ := opens
          exact ⟨Follows.handling _ outcome left ends (Nat.le_refl _) ahead.stands,
            waits_startingAt ends ahead⟩

/-- The ending of a request is settled, and its connection waits for it. -/
def Settled (backend : Backend α φ σ) (gateway : Gateway α) (incoming : Incoming)
    (now : Instant) (connection : Connection φ) : Prop :=
  ∃ ending, Fate backend gateway incoming ending ∧ connection.Follows backend now ending ∧
    connection.Waits backend gateway now

theorem settled_answered {incoming : Incoming} {instant : Instant} {response : Response}
    (fate : Fate backend gateway incoming (some (instant, response))) :
    (answered instant response : Connection φ).Settled backend gateway incoming instant :=
  ⟨_, fate, Follows.answered instant response (Nat.le_refl _), fun _ due => by cases due⟩

/-- A body that is there has just come, as has a read timeout that has passed. -/
theorem now_eq_of_come {readTimeout : Duration} {incoming : Incoming} {now instant : Instant}
    (awaited : incoming.Awaited readTimeout now) (come : instant ≤ now)
    (known : incoming.delivery.instant? = some instant ∨
      limitEnd readTimeout incoming.since = some instant) :
    now = max incoming.since instant := by
  obtain ⟨due, first, sooner⟩ : ∃ due, Pending.earlier incoming.delivery.instant?
      (limitEnd readTimeout incoming.since) = some due ∧ due ≤ instant := by
    rcases known with arrives | limited
    · exact Pending.earlier_le_left arrives
    · exact Pending.earlier_le_right limited
  refine Nat.le_antisymm ?_ (Nat.max_le.mpr ⟨awaited.since, come⟩)
  have least : max incoming.since due ≤ max incoming.since instant :=
    Nat.max_le.mpr ⟨Nat.le_max_left _ _, Nat.le_trans sooner (Nat.le_max_right _ _)⟩
  exact Nat.le_trans (awaited.due due first) least

theorem now_eq_of_limit {readTimeout : Duration} {incoming : Incoming} {now ending : Instant}
    (awaited : incoming.Awaited readTimeout now) (come : ending ≤ now)
    (limited : limitEnd readTimeout incoming.since = some ending) : now = ending := by
  have due := now_eq_of_come awaited come (Or.inr limited)
  rwa [Nat.max_eq_right (Nat.le_of_lt (lt_limitEnd limited))] at due

/-- A body that is there ends in time, unless the read timeout has passed before. -/
theorem inTime_of_come {readTimeout : Duration} {incoming : Incoming} {now arrival : Instant}
    (awaited : incoming.Awaited readTimeout now)
    (arrives : incoming.delivery.instant? = some arrival) (come : arrival ≤ now) :
    incoming.inTime readTimeout = true := by
  rw [Incoming.inTime, arrives, Option.any_some, Option.all_eq_true]
  intro ending limited
  refine decide_eq_true ?_
  rcases Nat.le_total arrival ending with early | late
  · exact early
  · -- The read timeout is past as well, and both are due at this very moment.
    rw [← now_eq_of_limit awaited (Nat.le_trans late come) limited]
    exact come

theorem not_inTime_of_limit {readTimeout : Duration} {incoming : Incoming} {now ending : Instant}
    (missing : ¬ hasCome incoming.delivery.instant? now = true)
    (limited : limitEnd readTimeout incoming.since = some ending) (come : ending ≤ now) :
    incoming.inTime readTimeout = false := by
  rw [Incoming.inTime, limited]
  cases arrives : incoming.delivery.instant? with
  | none => rfl
  | some arrival =>
      refine decide_eq_false fun early => missing ?_
      exact hasCome_iff.mpr ⟨arrival, arrives, Nat.le_trans early come⟩

section Body

variable {incoming : Incoming} {world : World σ}

/-- A body that is there is dispatched, or refused if it has broken off. -/
theorem settled_of_come (steady : backend.Steady)
    (awaited : incoming.Awaited gateway.config.readTimeout world.now)
    (come : hasCome incoming.delivery.instant? world.now = true) :
    ((receiving incoming).poll backend gateway world).1.Settled backend gateway incoming
      world.now := by
  obtain ⟨arrival, arrives, reached⟩ := hasCome_iff.mp come
  have inTime := inTime_of_come awaited arrives reached
  have due := now_eq_of_come awaited reached (Or.inl arrives)
  cases delivered : incoming.delivery with
  | never =>
      rw [delivered] at arrives
      cases arrives
  | broken instant =>
      rw [delivered] at arrives come
      obtain rfl : instant = arrival := Option.some.inj arrives
      have fate : Fate backend gateway incoming _ := Fate.broken instant delivered inTime
      rw [← due] at fate
      simp only [poll, delivered, come, if_true]
      exact settled_answered fate
  | complete instant =>
      rw [delivered] at arrives come
      obtain rfl : instant = arrival := Option.some.inj arrives
      obtain ⟨outcome, yields, opens⟩ := Service.exists_yields steady
        (target gateway.router incoming.request).1 (target gateway.router incoming.request).2
        world
      have fate := Fate.handled instant outcome delivered inTime yields
      have clock := Service.now_call backend (target gateway.router incoming.request).1
        (target gateway.router incoming.request).2 world
      rw [← due, ← clock] at fate
      simp only [poll, delivered, come, if_true, dispatch_eq_call]
      rw [← clock]
      exact ⟨_, fate, follows_of_opens opens⟩

/-- Without a body the read timeout, once it has passed, is the end. -/
theorem settled_of_limit (awaited : incoming.Awaited gateway.config.readTimeout world.now)
    (missing : ¬ hasCome incoming.delivery.instant? world.now = true)
    (past : hasCome (limitEnd gateway.config.readTimeout incoming.since) world.now = true) :
    ((receiving incoming).poll backend gateway world).1.Settled backend gateway incoming
      world.now := by
  obtain ⟨ending, limited, reached⟩ := hasCome_iff.mp past
  have fate : Fate backend gateway incoming _ :=
    Fate.late (not_inTime_of_limit missing limited reached)
  rw [limited, Option.map_some, ← now_eq_of_limit awaited reached limited] at fate
  simp only [poll, if_neg missing, past, if_true]
  exact settled_answered fate

/-- A body that is awaited is awaited further, or the ending of its request is settled. -/
theorem poll_receiving (steady : backend.Steady)
    (awaited : incoming.Awaited gateway.config.readTimeout world.now) :
    ((receiving incoming : Connection φ).poll backend gateway world).1 = receiving incoming ∧
        (receiving incoming : Connection φ).Waits backend gateway world.now ∨
      ((receiving incoming).poll backend gateway world).1.Settled backend gateway incoming
        world.now := by
  by_cases come : hasCome incoming.delivery.instant? world.now = true
  · exact Or.inr (settled_of_come steady awaited come)
  · by_cases past : hasCome (limitEnd gateway.config.readTimeout incoming.since) world.now = true
    · exact Or.inr (settled_of_limit awaited come past)
    · refine Or.inl ⟨by simp only [poll, if_neg come, if_neg past], fun instant asked => ?_⟩
      refine Nat.lt_of_not_le fun reached => ?_
      rcases Pending.earlier_cases asked with arrives | limited
      · exact come (hasCome_iff.mpr ⟨instant, arrives, reached⟩)
      · exact past (hasCome_iff.mpr ⟨instant, limited, reached⟩)

end Body

theorem Follows.wake_eq {ending : Ending} {pending : Pending φ} {now : Instant}
    (follows : Follows backend now ending (Connection.handling pending)) :
    (Connection.handling pending).wake backend gateway = ending.map Prod.fst := by
  cases follows with
  | handling begun outcome pending ends _ _ =>
      rw [wake, ends.wake, Outcome.startingAt, Option.map_map]
      rfl

theorem Follows.rank_le {ending : Ending} {connection : Connection φ} {now : Instant}
    (follows : connection.Follows backend now ending) : connection.rank ≤ 1 := by
  cases follows with
  | handling begun outcome pending _ _ _ => exact Nat.le_refl 1
  | answered instant response _ => exact Nat.zero_le 1

/-- A poll lets a connection move on if it was due. -/
theorem Follows.rank_poll {ending : Ending} {connection : Connection φ} {world : World σ}
    (follows : connection.Follows backend world.now ending) :
    (connection.poll backend gateway world).1.rank ≤ connection.rank ∧
      (¬ connection.Waits backend gateway world.now →
        (connection.poll backend gateway world).1.rank < connection.rank) := by
  have moved : (connection.poll backend gateway world).1.Follows backend world.now ending ∧
      (connection.poll backend gateway world).1.Waits backend gateway world.now := follows.poll
  obtain ⟨still, waits⟩ := moved
  cases connection with
  | receiving own => cases follows
  | aborted => cases follows
  | answered instant response =>
      exact ⟨Nat.le_refl _, fun due => absurd (fun _ asked => by cases asked) due⟩
  | handling pending =>
      refine ⟨still.rank_le, fun due => ?_⟩
      cases next : ((Connection.handling pending).poll backend gateway world).1 with
      | receiving own =>
          rw [next] at still
          cases still
      | aborted =>
          rw [next] at still
          cases still
      | answered instant response => exact Nat.zero_lt_one
      | handling left =>
          -- It would ask for the same instant as before, which has come.
          rw [next] at still waits
          refine absurd (fun instant asked => waits instant ?_) due
          rw [still.wake_eq]
          exact follows.wake_eq.symm.trans asked

/-- What one poll makes of a connection: it stands where its request has come to, waits from then
on, and has moved on if it was due. -/
theorem Stands.poll (steady : backend.Steady) {incoming : Incoming} {connection : Connection φ}
    {world : World σ} (stands : connection.Stands backend gateway incoming world.now) :
    (connection.poll backend gateway world).1.Stands backend gateway incoming world.now ∧
      (connection.poll backend gateway world).1.Waits backend gateway world.now ∧
      (connection.poll backend gateway world).1.rank ≤ connection.rank ∧
      (¬ connection.Waits backend gateway world.now →
        (connection.poll backend gateway world).1.rank < connection.rank) := by
  cases stands with
  | receiving awaited =>
      rcases poll_receiving steady awaited with ⟨same, waits⟩ | ⟨ending, fate, follows, waits⟩
      · rw [same]
        exact ⟨Stands.receiving awaited, waits, Nat.le_refl _, fun due => absurd waits due⟩
      · have moved : _ < 2 := Nat.lt_succ_of_le follows.rank_le
        exact ⟨Stands.following ending _ fate follows, waits, Nat.le_of_lt moved, fun _ => moved⟩
  | following ending connection fate follows =>
      have moved : (connection.poll backend gateway world).1.Follows backend world.now ending ∧
          (connection.poll backend gateway world).1.Waits backend gateway world.now := follows.poll
      exact ⟨Stands.following ending _ fate moved.1, moved.2, follows.rank_poll⟩

end Connection

end FunctionGateway
