import FunctionGateway.Proofs.Routing.Agreement
import FunctionGateway.Proofs.Server.Serving
import FunctionGateway.Proofs.Surface.Deadlines

/-!
# Shutting down with requests in flight

A shutdown gives requests in flight the drain timeout.  What it owes to each of them is told by
the moment at which the request would be answered if the server went on to serve.  A
request that would be answered before the drain is over is answered just so; one that would not is
aborted, and then the shutdown says that it has timed out.
-/

namespace FunctionGateway

open FunctionGateway.Http
open FunctionGateway.Routing

variable {α φ σ : Type}

namespace Running

/-- A request is in flight, and it ends so if the server goes on to serve: its connection is open
until the answer is due, and bears the answer from then on. -/
def InFlight (backend : Backend α φ σ) (running : Running α φ σ) (index : Nat)
    (ending : Ending) : Prop :=
  (∃ connection, running.connections[index]? = some connection ∧ connection.isOpen = true) ∧
    ∀ horizon, running.world.now ≤ horizon → ∃ later shown,
      running.wait backend horizon = some later ∧
        later.connections[index]? = some shown ∧ shown.Shows horizon ending

end Running

namespace Running.InFlight

variable {backend : Backend α φ σ} {running : Running α φ σ} {index : Nat}

/-- What the connection of a request shows at a moment. -/
theorem shown {ending : Ending} (inFlight : running.InFlight backend index ending)
    {horizon : Instant} (later : running.world.now ≤ horizon) {next : Running α φ σ}
    (waited : running.wait backend horizon = some next) :
    ∃ shown, next.connections[index]? = some shown ∧ shown.Shows horizon ending := by
  obtain ⟨other, shown, same, there, shows⟩ := inFlight.2 horizon later
  obtain rfl := Option.some.inj (waited.symm.trans same)
  exact ⟨shown, there, shows⟩

theorem eq_of_some {ending : Ending} {instant : Instant} {response : Response}
    (first : running.InFlight backend index (some (instant, response)))
    (second : running.InFlight backend index ending) : ending = some (instant, response) := by
  have later : running.world.now ≤ max running.world.now instant := Nat.le_max_left _ _
  obtain ⟨next, given, waited, there, shows⟩ := first.2 _ later
  obtain ⟨shown, same, other⟩ := second.shown later waited
  obtain rfl := Option.some.inj (there.symm.trans same)
  rw [shows.answered_of_le (Nat.le_max_right _ _)] at other
  exact other.eq_of_answered

/-- A request has one ending. -/
theorem unique {first second : Ending} (one : running.InFlight backend index first)
    (other : running.InFlight backend index second) : second = first := by
  cases first with
  | some ending => exact one.eq_of_some other
  | none =>
      cases second with
      | none => rfl
      | some ending => exact (other.eq_of_some one).symm

end Running.InFlight

namespace Busy

variable {backend : Backend α φ σ} {first busy : Running α φ σ} {arrivals : List Incoming}

/-- The ending of a request in flight is what the connections come to that are moved on. -/
theorem inFlight_iff (serves : Busy backend first busy arrivals) {index : Nat} {ending : Ending} :
    busy.InFlight backend index ending ↔
      (∃ connection, busy.connections[index]? = some connection ∧ connection.isOpen = true) ∧
        Connection.Keeps backend busy.gateway busy.connections busy.world index busy.world.now
          ending := by
  refine and_congr Iff.rfl (forall_congr' fun horizon => imp_congr Iff.rfl ?_)
  rw [serves.wait_eq horizon]
  constructor
  · rintro ⟨_, shown, ⟨⟩, there, shows⟩
    exact ⟨shown, there, shows⟩
  · rintro ⟨shown, there, shows⟩
    exact ⟨_, shown, rfl, there, shows⟩

theorem exists_inFlight (serves : Busy backend first busy arrivals) (steady : backend.Steady)
    {index : Nat} {incoming : Incoming} {connection : Connection φ}
    (arrived : arrivals[index]? = some incoming)
    (here : busy.connections[index]? = some connection) (unanswered : connection.isOpen = true) :
    ∃ ending, busy.InFlight backend index ending ∧
      Fate backend busy.gateway incoming ending := by
  obtain ⟨own, there, stands⟩ := serves.stand index incoming arrived
  obtain rfl := Option.some.inj (here.symm.trans there)
  obtain ⟨ending, fate, keeps⟩ := Connection.exists_ending steady serves.allStand here stands
  exact ⟨ending, serves.inFlight_iff.mpr ⟨⟨connection, here, unanswered⟩, keeps⟩, fate⟩

/-- A handler in the layers of its row is what its request comes to. -/
theorem handled (serves : Busy backend first busy arrivals) (steady : backend.Steady)
    {index : Nat} {incoming : Incoming} {ending : Ending} {arrival : Instant} {row : SurfaceRow}
    {auth : Option Credentials} {slot : Service α} {params : List (String × String)}
    (arrived : arrivals[index]? = some incoming) (inFlight : busy.InFlight backend index ending)
    (delivered : incoming.delivery = .complete arrival)
    (inTime : incoming.inTime busy.gateway.config.readTimeout = true)
    (found : busy.gateway.router.resolve incoming.request =
      .found (row.service (some busy.gateway.deadline) auth slot) params) :
    (∃ credentials, auth = some credentials ∧ row.requiresAuth = true ∧
        credentials.accept incoming.request = false ∧
        ending = some (max incoming.since arrival, unauthorized)) ∨
      ∃ own, slot.Yields backend (incoming.request.withParams params) own ∧
        ending = (own.behind busy.gateway.deadline).startingAt (max incoming.since arrival) := by
  obtain ⟨connection, here, unanswered⟩ := inFlight.1
  obtain ⟨own, flies, fate⟩ := serves.exists_inFlight steady arrived here unanswered
  obtain rfl := inFlight.unique flies
  cases fate with
  | late late => exact absurd (late.symm.trans inTime) Bool.false_ne_true
  | broken instant broken _ => cases broken.symm.trans delivered
  | handled instant outcome complete _ yields =>
      obtain rfl := Delivery.complete.inj (complete.symm.trans delivered)
      rw [target, found] at yields
      rcases SurfaceRow.yields_service yields with
        ⟨credentials, same, protection, refused, rfl⟩ | ⟨own, inside, rfl⟩
      · exact Or.inl ⟨credentials, same, protection, refused, rfl⟩
      · exact Or.inr ⟨own, inside, rfl⟩

end Busy

/-! ## The end of a shutdown -/

namespace Running

end Running

/-! ## Sleepers -/

namespace Sleepers

def rested : Response := Response.text "rested"

/-- Handlers that sleep for a fixed time before they answer.  The shared state counts those that are
asleep, and a job knows from its first poll on when it wakes up. -/
def backend : Backend Nat (Nat × Option Instant) Int where
  start := fun length _ asleep => ((length, none), asleep + 1)
  poll := fun job now asleep =>
    let ending := job.2.getD (now + job.1)
    if ending ≤ now then (.ready rested, asleep - 1) else (.pending (job.1, some ending), asleep)
  abandon := fun _ asleep => asleep - 1
  wake := fun job => job.2

theorem runs (length : Nat) (begun : Instant) :
    backend.Runs begun (some (length, rested)) (length, some (begun + length)) := by
  refine ⟨fun job => job = (length, some (begun + length)), rfl, ?_⟩
  rintro _ rfl
  refine ⟨rfl, fun now asleep reached stands => ?_⟩
  have latest := stands length rested rfl
  by_cases due : begun + length ≤ now
  · simp only [backend, Option.getD_some, if_pos due]
    exact ⟨length, rfl, Nat.le_antisymm latest due⟩
  · simp only [backend, Option.getD_some, if_neg due, and_true]
    rintro _ _ ⟨⟩
    exact Nat.not_le.mp due

/-- A sleeper takes its own time, however many others are asleep. -/
theorem lasts (length : Nat) (request : Request) (asleep : Int) :
    backend.Lasts length request asleep (some (length, rested)) := by
  intro now
  by_cases due : now + length ≤ now
  · obtain rfl : length = 0 := Nat.le_zero.mp (Nat.le_of_add_le_add_left due)
    simp only [backend, Option.getD_none, if_pos due]
  · simp only [backend, Option.getD_none, if_neg due]
    refine ⟨?_, runs length now⟩
    rintro _ _ ⟨⟩
    exact Nat.not_le.mp due

theorem steady : backend.Steady := fun length request asleep => ⟨_, lasts length request asleep⟩

theorem tallies : backend.Tallies id where
  start := fun _ _ _ => rfl
  poll := by
    intro job now asleep
    simp only [backend]
    split <;> simp [Polled.jobs]
  abandon := fun _ _ => rfl

def lengths : Router Nat :=
  ((Router.empty.route (.exactly "/nap" .any) 2).1.route (.exactly "/night" .any) 9).1

/-- A gateway on which a request sleeps two moments, or nine. -/
def gateway : Gateway Nat :=
  ⟨{}, lengths.map .handler⟩

def incoming (path : String) (arrival : Instant) : Incoming where
  request := ⟨.get, ⟨path, none⟩, [], [], []⟩
  since := 0
  delivery := .complete arrival

end Sleepers

end FunctionGateway
