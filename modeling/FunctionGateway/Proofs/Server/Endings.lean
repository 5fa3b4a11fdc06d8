import FunctionGateway.Proofs.Server.Advance

/-!
# Endings of requests in flight

Every request among several in flight has an ending that does not depend on how far the
connections are moved on: up to that moment its connection is open, and from then on it bears the
answer.  A drain that stops at a limit gives the answers that are due before the limit and aborts
what is due after it.
-/

namespace FunctionGateway

open FunctionGateway.Http

variable {α φ σ : Type} {backend : Backend α φ σ} {gateway : Gateway α}

namespace Connection

/-- What a connection shows at a moment of the ending of its request: the answer, once it is due,
and nothing before. -/
inductive Shows (horizon : Instant) : Ending → Connection φ → Prop
  | answered (instant : Instant) (response : Response) :
      instant ≤ horizon →
      Shows horizon (some (instant, response)) (.answered instant response)
  | awaited (ending : Ending) (connection : Connection φ) :
      connection.isOpen = true →
      (∀ instant response, ending = some (instant, response) → horizon < instant) →
      Shows horizon ending connection

theorem Shows.eq_of_answered {horizon instant : Instant} {response : Response} {ending : Ending}
    (shows : (Connection.answered instant response : Connection φ).Shows horizon ending) :
    ending = some (instant, response) := by
  cases shows with
  | answered => rfl
  | awaited _ _ unanswered _ => cases unanswered

theorem Shows.answered_of_le {horizon instant : Instant} {response : Response}
    {connection : Connection φ} (shows : connection.Shows horizon (some (instant, response)))
    (due : instant ≤ horizon) : connection = .answered instant response := by
  cases shows with
  | answered => rfl
  | awaited _ _ _ later => exact absurd due (Nat.not_le.mpr (later instant response rfl))

theorem Follows.shows {ending : Ending} {connection : Connection φ} {now horizon : Instant}
    (follows : connection.Follows backend now ending) (reached : now ≤ horizon)
    (waits : connection.Waits backend gateway horizon) : connection.Shows horizon ending := by
  cases follows with
  | answered instant response come =>
      exact Shows.answered instant response (Nat.le_trans come reached)
  | handling begun outcome pending ends early stands =>
      refine Shows.awaited _ _ rfl fun instant response ended => waits instant ?_
      have asked : (Connection.handling pending).wake backend gateway =
          (outcome.startingAt begun).map Prod.fst :=
        (Follows.handling begun outcome pending ends early stands).wake_eq
      rw [asked, ended]
      rfl

section Horizons

variable {connections : List (Connection φ)} {world : World σ} {index : Nat}
  {connection : Connection φ} {incoming : Incoming}

/-- From some moment on the connection at a place shows how its request ends, at whatever horizon
one stops. -/
def Keeps (backend : Backend α φ σ) (gateway : Gateway α) (connections : List (Connection φ))
    (world : World σ) (index : Nat) (since : Instant) (ending : Ending) : Prop :=
  ∀ horizon, since ≤ horizon → ∃ shown,
    (advance backend gateway horizon (drainTurns connections) connections world).1[index]? =
      some shown ∧ shown.Shows horizon ending

theorem now_le_horizon {horizon : Instant} (later : world.now ≤ horizon) :
    (advance backend gateway horizon (drainTurns connections) connections world).2.now ≤
      horizon := by
  have clock : (advance backend gateway horizon (drainTurns connections) connections world).2.now ≤
      max world.now horizon := (now_advance horizon (drainTurns connections) connections world).2
  rwa [Nat.max_eq_right later] at clock

/-- What a connection keeps holds at every horizon, and the connection waits from there on. -/
theorem Lasting.reached (steady : backend.Steady) {holds : Instant → Connection φ → Prop}
    (lasting : Lasting backend gateway holds)
    (stand : AllStand backend gateway world.now connections)
    (here : connections[index]? = some connection) (now : holds world.now connection)
    (horizon : Instant) :
    ∃ moved,
      (advance backend gateway horizon (drainTurns connections) connections world).1[index]? =
        some moved ∧
      holds (advance backend gateway horizon (drainTurns connections) connections world).2.now
        moved ∧
      moved.Waits backend gateway horizon := by
  obtain ⟨moved, there, kept⟩ :=
    @Lasting.onward _ _ _ _ _ _ horizon (drainTurns connections) _ _ _ _ lasting here now
  exact ⟨moved, there, kept,
    allWait_drainTurns steady stand horizon moved (List.mem_of_getElem? there)⟩

/-- A connection that follows an ending when it has come to some limit goes on to show it. -/
theorem keeps_of_follows (steady : backend.Steady)
    (stand : AllStand backend gateway world.now connections) {limit : Instant}
    (later : world.now ≤ limit)
    (here : (advance backend gateway limit (drainTurns connections) connections world).1[index]? =
      some connection) {ending : Ending}
    (follows : connection.Follows backend
      (advance backend gateway limit (drainTurns connections) connections world).2.now ending) :
    Keeps backend gateway connections world index limit ending := by
  intro horizon further
  obtain ⟨moved, there, still⟩ :=
    (lasting_follows backend gateway ending).further further here follows
  exact ⟨moved, there, still.shows (now_le_horizon (Nat.le_trans later further))
    (allWait_drainTurns steady stand horizon moved (List.mem_of_getElem? there))⟩

/-- Where neither the body nor a timeout ever comes, there is never an answer. -/
theorem keeps_of_endless (steady : backend.Steady)
    (stand : AllStand backend gateway world.now connections)
    (here : connections[index]? = some (.receiving incoming))
    (endless : (receiving incoming : Connection φ).wake backend gateway = none) :
    Fate backend gateway incoming none ∧
      Keeps backend gateway connections world index world.now none := by
  obtain ⟨missing, unlimited⟩ := Pending.earlier_eq_none_iff.mp endless
  constructor
  · have late : incoming.inTime gateway.config.readTimeout = false := by
      rw [Incoming.inTime, missing]
      rfl
    have fate : Fate backend gateway incoming
        ((limitEnd gateway.config.readTimeout incoming.since).map
          (·, Response.ofStatus Status.requestTimeout)) := Fate.late late
    rwa [unlimited] at fate
  · intro horizon _
    obtain ⟨_, there, rfl, _⟩ :=
      (lasting_receiving missing unlimited backend).reached steady stand here rfl horizon
    exact ⟨_, there, Shows.awaited _ _ rfl fun _ _ impossible => by cases impossible⟩

/-- From some moment on the ending of a request is settled. -/
theorem exists_settled (steady : backend.Steady)
    (stand : AllStand backend gateway world.now connections)
    (here : connections[index]? = some connection)
    (own : connection.Stands backend gateway incoming world.now) :
    ∃ settled ending, world.now ≤ settled ∧ Fate backend gateway incoming ending ∧
      Keeps backend gateway connections world index settled ending := by
  cases own with
  | following ending _ fate follows =>
      obtain ⟨moved, there, still, _⟩ :=
        (lasting_follows backend gateway ending).reached steady stand here follows world.now
      exact ⟨world.now, ending, Nat.le_refl _, fate,
        keeps_of_follows steady stand (Nat.le_refl _) there still⟩
  | receiving awaited =>
      cases asked : (receiving incoming : Connection φ).wake backend gateway with
      | none =>
          obtain ⟨fate, keeps⟩ := keeps_of_endless steady stand here asked
          exact ⟨world.now, none, Nat.le_refl _, fate, keeps⟩
      | some due =>
          obtain ⟨moved, there, stands, waits⟩ := (lasting_stands steady gateway incoming).reached
            steady stand here (Stands.receiving awaited) (max world.now due)
          cases stands with
          | receiving _ =>
              exact absurd (waits due asked) (Nat.not_lt.mpr (Nat.le_max_right _ _))
          | following ending _ fate follows =>
              exact ⟨max world.now due, ending, Nat.le_max_left _ _, fate,
                keeps_of_follows steady stand (Nat.le_max_left _ _) there follows⟩

/-- Every request has an ending, and its connection shows that ending at each horizon. -/
theorem exists_ending (steady : backend.Steady)
    (stand : AllStand backend gateway world.now connections)
    (here : connections[index]? = some connection)
    (own : connection.Stands backend gateway incoming world.now) :
    ∃ ending, Fate backend gateway incoming ending ∧
      Keeps backend gateway connections world index world.now ending := by
  obtain ⟨settled, ending, begun, fate, after⟩ := exists_settled steady stand here own
  refine ⟨ending, fate, fun horizon later => ?_⟩
  obtain ⟨shown, there, stands, _⟩ :=
    (lasting_stands steady gateway incoming).reached steady stand here own horizon
  refine ⟨shown, there, ?_⟩
  cases unanswered : shown.isOpen with
  | true =>
      refine Shows.awaited ending shown unanswered ?_
      rintro moment response rfl
      have further : horizon ≤ max (max settled horizon) moment :=
        Nat.le_trans (Nat.le_max_right _ _) (Nat.le_max_left _ _)
      obtain ⟨given, ended, shows⟩ := after (max (max settled horizon) moment)
        (Nat.le_trans (Nat.le_max_left _ _) (Nat.le_max_left _ _))
      rw [shows.answered_of_le (Nat.le_max_right _ _)] at ended
      exact lt_of_answered_further further there unanswered ended
  | false =>
      cases stands with
      | receiving _ => cases unanswered
      | following _ _ _ follows =>
          cases follows with
          | handling _ _ _ _ _ _ => cases unanswered
          | answered moment response come =>
              -- The answer is still there once the ending is settled.
              obtain ⟨_, ended, rfl⟩ := (lasting_answered backend gateway moment
                response).further (Nat.le_max_right settled horizon) there rfl
              obtain ⟨given, same, shows⟩ := after (max settled horizon) (Nat.le_max_left _ _)
              obtain rfl := Option.some.inj (ended.symm.trans same)
              rw [shows.eq_of_answered]
              exact Shows.answered moment response (Nat.le_trans come (now_le_horizon later))

end Horizons

/-! ## Giving up -/

end Connection

/-! ## Draining -/

section Draining

open Connection

variable {timeout : Duration} {connections : List (Connection φ)} {world : World σ}

end Draining

end FunctionGateway
