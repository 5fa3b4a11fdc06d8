import FunctionGateway.Proofs.Server.Fates
import FunctionGateway.Server.Drain

/-!
# Connections side by side

Connections that are moved on together are polled in turn and wait together for the first of
them that is due.  What each of them keeps through a poll and through a wait it keeps all the
way; and since every jump of the clock lets one of them move on, and each can do so twice at
most, a bounded number of jumps leads as far as there is anything to do.
-/

namespace FunctionGateway

open FunctionGateway.Http

variable {α φ σ : Type}

namespace Connection

/-! ## One round -/

section Round

variable {move : Connection φ → World σ → Connection φ × World σ}

theorem length_each (connections : List (Connection φ)) (world : World σ) :
    (each move connections world).1.length = connections.length := by
  induction connections generalizing world with
  | nil => rfl
  | cons first rest inductionHypothesis =>
      exact congrArg (· + 1) (inductionHypothesis (move first world).2)

theorem now_each (still : ∀ connection world, (move connection world).2.now = world.now)
    (connections : List (Connection φ)) (world : World σ) :
    (each move connections world).2.now = world.now := by
  induction connections generalizing world with
  | nil => rfl
  | cons first rest inductionHypothesis =>
      exact (inductionHypothesis (move first world).2).trans (still first world)

/-- In a round each connection has its own turn, at the same moment as the others. -/
theorem each_getElem? (still : ∀ connection world, (move connection world).2.now = world.now)
    {connections : List (Connection φ)} {index : Nat} {connection : Connection φ}
    (here : connections[index]? = some connection) (world : World σ) :
    ∃ own : World σ, own.now = world.now ∧
      (each move connections world).1[index]? = some (move connection own).1 := by
  induction connections generalizing index world with
  | nil => cases here
  | cons first rest inductionHypothesis =>
      cases index with
      | zero =>
          obtain rfl : first = connection := Option.some.inj here
          exact ⟨world, rfl, rfl⟩
      | succ earlier =>
          obtain ⟨own, clock, there⟩ := inductionHypothesis here (move first world).2
          exact ⟨own, clock.trans (still first world), there⟩

end Round

variable {backend : Backend α φ σ} {gateway : Gateway α}

/-! ## The first one that is due -/

theorem firstWake_le {connections : List (Connection φ)} {connection : Connection φ}
    (member : connection ∈ connections) {due : Instant}
    (asked : connection.wake backend gateway = some due) :
    ∃ first, firstWake backend gateway connections = some first ∧ first ≤ due := by
  induction connections with
  | nil => cases member
  | cons head rest inductionHypothesis =>
      rw [firstWake, List.foldr_cons]
      rcases List.mem_cons.mp member with rfl | later
      · exact Pending.earlier_le_left asked
      · obtain ⟨first, found, sooner⟩ := inductionHypothesis later
        obtain ⟨least, both, before⟩ :=
          @Pending.earlier_le_right (head.wake backend gateway) _ _ found
        exact ⟨least, both, Nat.le_trans before sooner⟩

theorem exists_of_firstWake {connections : List (Connection φ)} {first : Instant}
    (found : firstWake backend gateway connections = some first) :
    ∃ connection ∈ connections, connection.wake backend gateway = some first := by
  induction connections with
  | nil => cases found
  | cons head rest inductionHypothesis =>
      rw [firstWake, List.foldr_cons] at found
      rcases Pending.earlier_cases found with own | later
      · exact ⟨head, List.mem_cons_self, own⟩
      · obtain ⟨connection, member, asked⟩ := inductionHypothesis later
        exact ⟨connection, List.mem_cons_of_mem head member, asked⟩

/-- A jump to the first moment at which a connection is due passes no other one by. -/
theorem reach_le_of_firstWake {connections : List (Connection φ)} {connection : Connection φ}
    (member : connection ∈ connections) {first due : Instant}
    (found : firstWake backend gateway connections = some first)
    (asked : connection.wake backend gateway = some due) : first ≤ due := by
  obtain ⟨least, same, sooner⟩ := firstWake_le member asked
  obtain rfl := Option.some.inj (found.symm.trans same)
  exact sooner

/-! ## What connections keep -/

/-- What holds of a connection from one moment on, whether it is polled or waits. -/
structure Lasting (backend : Backend α φ σ) (gateway : Gateway α)
    (holds : Instant → Connection φ → Prop) : Prop where
  poll : ∀ connection (world : World σ), holds world.now connection →
    holds world.now (connection.poll backend gateway world).1
  wait : ∀ connection now instant, holds now connection → now ≤ instant →
    (∀ due, connection.wake backend gateway = some due → instant ≤ due) →
      holds instant connection

theorem lasting_follows (backend : Backend α φ σ) (gateway : Gateway α) (ending : Ending) :
    Lasting backend gateway fun now connection => connection.Follows backend now ending where
  poll := by
    intro connection world follows
    have both : (connection.poll backend gateway world).1.Follows backend world.now ending ∧
        (connection.poll backend gateway world).1.Waits backend gateway world.now := follows.poll
    exact both.1
  wait := fun _ _ _ follows later early => follows.wait later early

theorem lasting_stands (steady : backend.Steady) (gateway : Gateway α) (incoming : Incoming) :
    Lasting backend gateway fun now connection =>
      connection.Stands backend gateway incoming now where
  poll := fun _ _ stands => (stands.poll steady).1
  wait := fun _ _ _ stands later early => stands.wait later early

/-- An answer that was given stays. -/
theorem lasting_answered (backend : Backend α φ σ) (gateway : Gateway α) (instant : Instant)
    (response : Response) :
    Lasting backend gateway fun _ connection => connection = .answered instant response where
  poll := by
    rintro connection world rfl
    rfl
  wait := fun _ _ _ same _ _ => same

theorem isOpen_of_poll {connection : Connection φ} {world : World σ}
    (unanswered : (connection.poll backend gateway world).1.isOpen = true) :
    connection.isOpen = true := by
  cases connection with
  | receiving incoming => rfl
  | handling pending => rfl
  | answered instant response => exact unanswered
  | aborted => exact unanswered

/-- A body that is awaited without end, and without a timeout, is awaited for good. -/
theorem lasting_receiving {incoming : Incoming} {gateway : Gateway α}
    (endless : incoming.delivery.instant? = none)
    (unlimited : limitEnd gateway.config.readTimeout incoming.since = none)
    (backend : Backend α φ σ) :
    Lasting backend gateway fun _ connection => connection = .receiving incoming where
  poll := by
    rintro connection world rfl
    simp [Connection.poll, endless, unlimited, hasCome]
  wait := fun _ _ _ same _ _ => same

theorem now_of_pollPending {pending : Pending φ} {world : World σ} {instant : Instant}
    {response : Response}
    (given : (pollPending backend pending world).1 = .answered instant response) :
    instant = world.now := by
  rw [pollPending] at given
  split at given
  · exact (Connection.answered.inj given).1.symm
  · cases given

/-- An answer bears the moment of the poll that gave it. -/
theorem answered_of_poll {connection : Connection φ} {world : World σ} {instant : Instant}
    {response : Response}
    (given : (connection.poll backend gateway world).1 = .answered instant response) :
    connection = .answered instant response ∨ instant = world.now := by
  cases connection with
  | answered own other => exact Or.inl given
  | aborted => cases given
  | handling pending => exact Or.inr (now_of_pollPending given)
  | receiving incoming =>
      right
      simp only [Connection.poll] at given
      split at given
      · split at given
        · rw [dispatch_eq_call] at given
          exact (now_of_pollPending given).trans (Service.now_call backend _ _ world)
        · exact (Connection.answered.inj given).1.symm
      · split at given
        · exact (Connection.answered.inj given).1.symm
        · cases given

/-- What is answered from some moment on is answered after that moment. -/
theorem lasting_later (backend : Backend α φ σ) (gateway : Gateway α) (limit : Instant) :
    Lasting backend gateway fun now connection => limit < now ∧
      ∀ instant response, connection = .answered instant response → limit < instant where
  poll := by
    rintro connection world ⟨later, known⟩
    refine ⟨later, fun instant response given => ?_⟩
    rcases answered_of_poll given with before | now
    · exact known instant response before
    · rw [now]
      exact later
  wait := fun _ _ _ both later _ => ⟨Nat.lt_of_lt_of_le both.1 later, both.2⟩

/-! ## Moving on up to a limit -/

theorem length_advance (limit : Instant) (turns : Nat) (connections : List (Connection φ))
    (world : World σ) :
    (advance backend gateway limit turns connections world).1.length = connections.length := by
  induction turns generalizing connections world with
  | zero => rfl
  | succ turns inductionHypothesis =>
      have round : (each (poll backend gateway) connections world).1.length =
          connections.length := length_each connections world
      simp only [advance]
      split
      · exact round
      · split
        · exact (inductionHypothesis _ _).trans round
        · exact round

theorem now_advance (limit : Instant) (turns : Nat) (connections : List (Connection φ))
    (world : World σ) :
    world.now ≤ (advance backend gateway limit turns connections world).2.now ∧
      (advance backend gateway limit turns connections world).2.now ≤ max world.now limit := by
  induction turns generalizing connections world with
  | zero => exact ⟨Nat.le_refl _, Nat.le_max_left _ _⟩
  | succ turns inductionHypothesis =>
      have round := now_each (now_poll backend gateway) connections world
      simp only [advance]
      split
      · rw [round]
        exact ⟨Nat.le_refl _, Nat.le_max_left _ _⟩
      · rename_i instant _
        split
        · rename_i early
          obtain ⟨least, most⟩ := inductionHypothesis
            (each (poll backend gateway) connections world).1
            ((each (poll backend gateway) connections world).2.reach instant)
          have clock : ((each (poll backend gateway) connections world).2.reach instant).now =
              max world.now instant := congrArg (max · instant) round
          rw [clock] at least most
          refine ⟨Nat.le_trans (Nat.le_max_left _ _) least, Nat.le_trans most ?_⟩
          refine Nat.max_le.mpr ⟨Nat.max_le.mpr ⟨Nat.le_max_left _ _, ?_⟩, Nat.le_max_right _ _⟩
          exact Nat.le_trans early (Nat.le_max_right _ _)
        · rw [round]
          exact ⟨Nat.le_refl _, Nat.le_max_left _ _⟩

section Keeping

variable {holds : Instant → Connection φ → Prop} {limit : Instant} {turns : Nat}
  {connections : List (Connection φ)} {world : World σ} {index : Nat}
  {connection : Connection φ}

/-- A jump of the clock to the first moment at which one of several connections is due. -/
theorem Lasting.jump (lasting : Lasting backend gateway holds) {first : Instant}
    (here : connections[index]? = some connection) (now : holds world.now connection)
    (found : firstWake backend gateway connections = some first) :
    holds (world.reach first).now connection := by
  rcases Nat.le_total world.now first with later | earlier
  · rw [World.reach, Nat.max_eq_right later]
    exact lasting.wait connection world.now first now later
      fun due asked => reach_le_of_firstWake (List.mem_of_getElem? here) found asked
  · rw [World.reach, Nat.max_eq_left earlier]
    exact now

/-- What a connection keeps through polls and waits it keeps as long as it is moved on. -/
theorem Lasting.onward (lasting : Lasting backend gateway holds)
    (here : connections[index]? = some connection) (now : holds world.now connection) :
    ∃ moved, (advance backend gateway limit turns connections world).1[index]? = some moved ∧
      holds (advance backend gateway limit turns connections world).2.now moved := by
  induction turns generalizing connections world connection with
  | zero => exact ⟨connection, here, now⟩
  | succ turns inductionHypothesis =>
      obtain ⟨own, clock, there⟩ := each_getElem? (now_poll backend gateway) here world
      have polled := lasting.poll connection own (by rw [clock]; exact now)
      have round := now_each (now_poll backend gateway) connections world
      rw [clock, ← round] at polled
      simp only [advance]
      split
      · exact ⟨_, there, polled⟩
      · rename_i first found
        split
        · exact inductionHypothesis there (lasting.jump there polled found)
        · exact ⟨_, there, polled⟩

/-- To move on up to a later limit is to move on up to the earlier one first. -/
theorem advance_further {further : Instant} (later : limit ≤ further) (turns : Nat)
    (connections : List (Connection φ)) (world : World σ) :
    advance backend gateway further turns connections world =
        advance backend gateway limit turns connections world ∨
      ∃ rest first, limit < first ∧
        firstWake backend gateway (advance backend gateway limit turns connections world).1 =
          some first ∧
        advance backend gateway further turns connections world =
          advance backend gateway further rest
            (advance backend gateway limit turns connections world).1
            ((advance backend gateway limit turns connections world).2.reach first) := by
  induction turns generalizing connections world with
  | zero => exact Or.inl rfl
  | succ turns inductionHypothesis =>
      simp only [advance]
      cases found : firstWake backend gateway (each (poll backend gateway) connections world).1 with
      | none => exact Or.inl rfl
      | some first =>
          by_cases early : first ≤ limit
          · simp only [if_pos early, if_pos (Nat.le_trans early later)]
            exact inductionHypothesis _ _
          · simp only [if_neg early]
            by_cases reached : first ≤ further
            · rw [if_pos reached]
              exact Or.inr ⟨turns, first, Nat.lt_of_not_le early, found, rfl⟩
            · rw [if_neg reached]
              exact Or.inl rfl

theorem Lasting.further (lasting : Lasting backend gateway holds) {further : Instant}
    (later : limit ≤ further)
    (here : (advance backend gateway limit turns connections world).1[index]? =
      some connection)
    (now : holds (advance backend gateway limit turns connections world).2.now
      connection) :
    ∃ moved,
      (advance backend gateway further turns connections world).1[index]? =
        some moved ∧
      holds (advance backend gateway further turns connections world).2.now moved := by
  rcases @advance_further _ _ _ backend gateway _ _ later turns connections world with
    same | ⟨rest, first, _, found, continued⟩
  · rw [same]
    exact ⟨connection, here, now⟩
  · rw [continued]
    exact lasting.onward here (lasting.jump here now found)

/-- What is open at a limit is answered after it, if at all. -/
theorem lt_of_answered_further {further : Instant} (later : limit ≤ further)
    (here : (advance backend gateway limit turns connections world).1[index]? =
      some connection)
    (unanswered : connection.isOpen = true) {instant : Instant} {response : Response}
    (given : (advance backend gateway further turns connections world).1[index]? =
      some (.answered instant response)) :
    limit < instant := by
  rcases @advance_further _ _ _ backend gateway _ _ later turns connections world with
    same | ⟨rest, first, after, found, continued⟩
  · rw [same, here] at given
    obtain rfl := Option.some.inj given
    cases unanswered
  · rw [continued] at given
    have fresh : limit < ((advance backend gateway limit turns connections
        world).2.reach first).now := Nat.lt_of_lt_of_le after (Nat.le_max_right _ _)
    have none : ∀ instant response, connection = .answered instant response → limit < instant := by
      rintro instant response rfl
      cases unanswered
    obtain ⟨moved, there, _, known⟩ :=
      @Lasting.onward _ _ _ _ _ _ further rest _ _ _ _
        (lasting_later backend gateway limit) here ⟨fresh, none⟩
    obtain rfl := Option.some.inj (there.symm.trans given)
    exact known instant response rfl

end Keeping

/-! ## Turns enough -/

/-- How many times connections can still move on, taken together. -/
def rankOf (connections : List (Connection φ)) : Nat :=
  connections.foldr (fun connection total => connection.rank + total) 0

theorem rankOf_le (connections : List (Connection φ)) :
    rankOf connections ≤ 2 * connections.length := by
  induction connections with
  | nil => exact Nat.le_refl 0
  | cons first rest inductionHypothesis =>
      have own : first.rank ≤ 2 := by cases first <;> simp [rank]
      simp only [rankOf, List.foldr_cons, List.length_cons] at inductionHypothesis ⊢
      omega

/-- Every connection stands where some request has come to. -/
def AllStand (backend : Backend α φ σ) (gateway : Gateway α) (now : Instant)
    (connections : List (Connection φ)) : Prop :=
  ∀ connection ∈ connections, ∃ incoming, connection.Stands backend gateway incoming now

/-- No connection asks to be polled at once. -/
def AllWait (backend : Backend α φ σ) (gateway : Gateway α) (now : Instant)
    (connections : List (Connection φ)) : Prop :=
  ∀ connection ∈ connections, connection.Waits backend gateway now

/-- After a round every connection waits.  A round in which one of them is due has moved
something on. -/
theorem allStand_each (steady : backend.Steady) {connections : List (Connection φ)}
    {world : World σ} (stand : AllStand backend gateway world.now connections) :
    AllStand backend gateway world.now (each (poll backend gateway) connections world).1 ∧
      AllWait backend gateway world.now (each (poll backend gateway) connections world).1 ∧
      rankOf (each (poll backend gateway) connections world).1 ≤ rankOf connections ∧
      (¬ AllWait backend gateway world.now connections →
        rankOf (each (poll backend gateway) connections world).1 < rankOf connections) := by
  induction connections generalizing world with
  | nil => exact ⟨stand, by rintro _ ⟨⟩, Nat.le_refl _, fun due => absurd (by rintro _ ⟨⟩) due⟩
  | cons first rest inductionHypothesis =>
      obtain ⟨incoming, own⟩ := stand first List.mem_cons_self
      obtain ⟨still, waits, kept, moves⟩ := own.poll steady
      have clock := now_poll backend gateway first world
      have others := @inductionHypothesis (first.poll backend gateway world).2 (by
        rw [clock]
        exact fun connection member => stand connection (List.mem_cons_of_mem first member))
      rw [clock] at others
      obtain ⟨allStill, allWait, allKept, allMove⟩ := others
      simp only [each, rankOf, List.foldr_cons] at allKept allMove ⊢
      refine ⟨List.forall_mem_cons.mpr ⟨⟨incoming, still⟩, allStill⟩,
        List.forall_mem_cons.mpr ⟨waits, allWait⟩, Nat.add_le_add kept allKept, fun due => ?_⟩
      by_cases ownDue : first.Waits backend gateway world.now
      · have otherDue : ¬ AllWait backend gateway world.now rest :=
          fun all => due (List.forall_mem_cons.mpr ⟨ownDue, all⟩)
        exact Nat.add_lt_add_of_le_of_lt kept (allMove otherDue)
      · exact Nat.add_lt_add_of_lt_of_le (moves ownDue) allKept

/-- Turns enough lead up to the limit: nothing that is due by then is left. -/
theorem allWait_advance (steady : backend.Steady) {limit : Instant} {turns : Nat}
    {connections : List (Connection φ)} {world : World σ}
    (stand : AllStand backend gateway world.now connections)
    (enough : rankOf connections < turns ∨
      rankOf connections ≤ turns ∧ ¬ AllWait backend gateway world.now connections) :
    AllWait backend gateway limit
      (advance backend gateway limit turns connections world).1 := by
  induction turns generalizing connections world with
  | zero =>
      -- A connection that is due can move on, which needs a turn.
      have stuck := (allStand_each steady stand).2.2.2
      rcases enough with less | ⟨none, due⟩
      · exact absurd less (Nat.not_lt_zero _)
      · exact absurd (Nat.lt_of_lt_of_le (stuck due) none) (Nat.not_lt_zero _)
  | succ turns inductionHypothesis =>
      obtain ⟨still, waits, kept, moves⟩ := allStand_each steady stand
      have round := now_each (now_poll backend gateway) connections world
      have left : rankOf (each (poll backend gateway) connections world).1 ≤ turns := by
        rcases enough with less | ⟨just, due⟩
        · exact Nat.le_trans kept (Nat.le_of_lt_succ less)
        · exact Nat.le_of_lt_succ (Nat.lt_of_lt_of_le (moves due) just)
      simp only [advance]
      cases found : firstWake backend gateway (each (poll backend gateway) connections world).1 with
      | none =>
          intro connection member due asked
          obtain ⟨first, there, _⟩ := firstWake_le member asked
          exact absurd (found.symm.trans there) (Option.some_ne_none first).symm
      | some first =>
          by_cases early : first ≤ limit
          · simp only [if_pos early]
            refine inductionHypothesis ?_ (Or.inr ⟨left, fun all => ?_⟩)
            · intro connection member
              obtain ⟨incoming, own⟩ := still connection member
              obtain ⟨index, here⟩ := List.getElem?_of_mem member
              rw [← round] at own
              exact ⟨incoming, (lasting_stands steady gateway incoming).jump here own found⟩
            · obtain ⟨connection, member, asked⟩ := exists_of_firstWake found
              have later := all connection member first asked
              exact absurd later (Nat.not_lt.mpr (Nat.le_max_right _ _))
          · simp only [if_neg early]
            intro connection member due asked
            exact Nat.lt_of_lt_of_le (Nat.lt_of_not_le early)
              (reach_le_of_firstWake member found asked)

/-- A drain has turns enough. -/
theorem allWait_drainTurns (steady : backend.Steady) {connections : List (Connection φ)}
    {world : World σ} (stand : AllStand backend gateway world.now connections)
    (limit : Instant) :
    AllWait backend gateway limit
      (advance backend gateway limit (drainTurns connections) connections world).1 :=
  allWait_advance steady stand (Or.inl (Nat.lt_succ_of_le (rankOf_le connections)))

end Connection

end FunctionGateway
