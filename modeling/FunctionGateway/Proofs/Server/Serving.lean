import FunctionGateway.Proofs.Server.Endings
import FunctionGateway.Proofs.Server.Order
import FunctionGateway.Proofs.Server.Tally
import FunctionGateway.Server.Running

/-!
# Servers that serve

A server that was started serves: requests arrive, each on its own connection, and time passes.
Its life then is that of a server with as many connections as are open, each of which stands
where its request has come to.
-/

namespace FunctionGateway

open FunctionGateway.Http

variable {α φ σ : Type}

/-! ## The life of a server that serves -/

namespace Lifecycle

/-- A server that serves, between two turns of its loop. -/
def serving (connections : Nat) : Lifecycle where
  published := [.idle, .starting, .serving]
  stage := .waiting
  handle := .held
  listening := true
  connections := connections

/-- A server that drains because its owner asked for a shutdown. -/
def draining (connections : Nat) : Lifecycle where
  published := [.idle, .starting, .serving, .draining]
  stage := .draining
  handle := .awaiting
  connections := connections

/-- Connections finish one after the other. -/
theorem run_finish (life : Lifecycle) {before left : Nat} (fewer : left ≤ before) :
    { life with connections := before }.run (List.replicate (before - left) .finish) =
      some { life with connections := left } := by
  obtain ⟨finished, rfl⟩ := Nat.exists_eq_add_of_le fewer
  rw [Nat.add_sub_cancel_left]
  clear fewer
  induction finished with
  | zero => rfl
  | succ finished inductionHypothesis => exact inductionHypothesis

theorem run_accept (connections : Nat) :
    (serving connections).run [.connect, .beginTurn, .accept] = some (serving (connections + 1)) :=
  rfl

end Lifecycle

/-! ## Open connections -/

namespace Connection

variable {backend : Backend α φ σ} {gateway : Gateway α}

theorem countP_each (connections : List (Connection φ)) (world : World σ) :
    (each (poll backend gateway) connections world).1.countP isOpen ≤
      connections.countP isOpen := by
  induction connections generalizing world with
  | nil => exact Nat.le_refl 0
  | cons first rest inductionHypothesis =>
      have others := inductionHypothesis (first.poll backend gateway world).2
      simp only [each, List.countP_cons]
      refine Nat.add_le_add others ?_
      by_cases unanswered : (first.poll backend gateway world).1.isOpen = true
      · exact Nat.le_of_eq ((if_pos unanswered).trans (if_pos (isOpen_of_poll unanswered)).symm)
      · rw [if_neg unanswered]
        exact Nat.zero_le _

/-- Connections are closed, and never opened, as they are moved on. -/
theorem countP_advance (limit : Instant) (turns : Nat) (connections : List (Connection φ))
    (world : World σ) :
    (advance backend gateway limit turns connections world).1.countP isOpen ≤
      connections.countP isOpen := by
  induction turns generalizing connections world with
  | zero => exact Nat.le_refl _
  | succ turns inductionHypothesis =>
      have round : (each (poll backend gateway) connections world).1.countP isOpen ≤
          connections.countP isOpen := countP_each connections world
      simp only [advance]
      split
      · exact round
      · split
        · exact Nat.le_trans (inductionHypothesis _ _) round
        · exact round

end Connection

/-! ## Serving -/

/-- A server as it serves from its start on, and the requests that have arrived, in order. -/
inductive Serving (backend : Backend α φ σ) (first : Running α φ σ) :
    Running α φ σ → List Incoming → Prop
  | start : Serving backend first first []
  | arrive {running next : Running α φ σ} {arrivals : List Incoming} (request : Request)
      (delivery : Delivery) :
      Serving backend first running arrivals →
      running.arrive request delivery = some next →
      Serving backend first next
        (arrivals ++ [{ request, since := running.world.now, delivery }])
  | wait {running next : Running α φ σ} {arrivals : List Incoming} (instant : Instant) :
      Serving backend first running arrivals →
      running.wait backend instant = some next →
      Serving backend first next arrivals

/-- What holds of a server as long as it serves. -/
structure Busy (backend : Backend α φ σ) (first running : Running α φ σ)
    (arrivals : List Incoming) : Prop where
  gateway : running.gateway = first.gateway
  drainTimeout : running.drainTimeout = first.drainTimeout
  life : running.life = Lifecycle.serving (running.connections.countP Connection.isOpen)
  length : running.connections.length = arrivals.length
  stand : ∀ (index : Nat) incoming, arrivals[index]? = some incoming →
    ∃ connection, running.connections[index]? = some connection ∧
      connection.Stands backend running.gateway incoming running.world.now
  tally : ∀ count : σ → Int, backend.Tallies count →
    count running.world.shared - Connection.jobsOf running.connections = count first.world.shared

namespace Busy

variable {backend : Backend α φ σ} {first running : Running α φ σ} {arrivals : List Incoming}

theorem start {host : Host} {gateway : Gateway α} {timeout : Duration} {world : World σ}
    (started : Running.start host gateway timeout world = .ok first) :
    Busy backend first first [] ∧
      first.gateway = gateway ∧ first.drainTimeout = timeout ∧ first.world = world := by
  cases taken : host.portTaken with
  | true =>
      rw [Running.start, taken] at started
      cases started
  | false =>
      rw [Running.start, taken] at started
      obtain rfl := Except.ok.inj started
      refine ⟨⟨rfl, rfl, rfl, rfl, ?_, ?_⟩, rfl, rfl, rfl⟩
      · rintro index incoming ⟨⟩
      · exact fun count _ => Int.sub_zero _

theorem allStand (busy : Busy backend first running arrivals) :
    Connection.AllStand backend running.gateway running.world.now running.connections := by
  intro connection member
  obtain ⟨index, here⟩ := List.getElem?_of_mem member
  obtain ⟨within, _⟩ := List.getElem?_eq_some_iff.mp here
  rw [busy.length] at within
  obtain ⟨own, there, stands⟩ := busy.stand index _ (List.getElem?_eq_getElem within)
  obtain rfl := Option.some.inj (here.symm.trans there)
  exact ⟨_, stands⟩

/-- A server that serves accepts a request. -/
theorem arrive (busy : Busy backend first running arrivals) (request : Request)
    (delivery : Delivery) :
    ∃ next, running.arrive request delivery = some next ∧
      Busy backend first next
        (arrivals ++ [{ request, since := running.world.now, delivery }]) := by
  have accepted := Lifecycle.run_accept (running.connections.countP Connection.isOpen)
  rw [← busy.life] at accepted
  refine ⟨_, by rw [Running.arrive, Running.live, accepted]; rfl, ?_⟩
  constructor
  · exact busy.gateway
  · exact busy.drainTimeout
  · simp [Connection.isOpen]
  · simp [busy.length]
  · intro index incoming arrived
    rcases Nat.lt_or_ge index arrivals.length with earlier | last
    · rw [List.getElem?_append_left earlier] at arrived
      obtain ⟨connection, here, stands⟩ := busy.stand index incoming arrived
      refine ⟨connection, ?_, stands⟩
      rw [List.getElem?_append_left (by rw [busy.length]; exact earlier)]
      exact here
    · rw [List.getElem?_append_right last, List.getElem?_singleton] at arrived
      obtain ⟨new, same⟩ := Option.ite_none_right_eq_some.mp arrived
      obtain rfl := Option.some.inj same
      refine ⟨_, ?_, Connection.stands_receiving backend running.gateway _⟩
      rw [List.getElem?_append_right (by rw [busy.length]; exact last), busy.length, new]
      rfl
  · intro count tallies
    have same := busy.tally count tallies
    simpa [Connection.jobsOf, Connection.jobs] using same

/-- What time makes of a server that serves. -/
theorem wait_eq (busy : Busy backend first running arrivals) (instant : Instant) :
    running.wait backend instant =
      let moved := Connection.advance backend running.gateway instant
        (drainTurns running.connections) running.connections running.world
      some { running with
        life := Lifecycle.serving (moved.1.countP Connection.isOpen)
        connections := moved.1
        world := moved.2.reach instant } := by
  have finished : (Lifecycle.serving (running.connections.countP Connection.isOpen)).run _ =
      some (Lifecycle.serving ((Connection.advance backend running.gateway instant
        (drainTurns running.connections) running.connections running.world).1.countP
          Connection.isOpen)) :=
    Lifecycle.run_finish (Lifecycle.serving 0) (Connection.countP_advance _ _ _ _)
  rw [← busy.life] at finished
  simp only [Running.wait, Running.live, finished, Option.map_some]

/-- A server goes on to serve as time passes. -/
theorem wait (steady : backend.Steady) (busy : Busy backend first running arrivals)
    {instant : Instant} {next : Running α φ σ}
    (waited : running.wait backend instant = some next) :
    Busy backend first next arrivals := by
  obtain rfl := Option.some.inj ((busy.wait_eq instant).symm.trans waited)
  constructor
  · exact busy.gateway
  · exact busy.drainTimeout
  · rfl
  · exact (Connection.length_advance _ _ _ _).trans busy.length
  · intro index incoming arrived
    obtain ⟨connection, here, stands⟩ := busy.stand index incoming arrived
    obtain ⟨moved, there, still, waits⟩ := (Connection.lasting_stands steady running.gateway
      incoming).reached steady busy.allStand here stands instant
    exact ⟨moved, there, still.reach waits⟩
  · intro count tallies
    exact (Connection.jobsOf_advance tallies running.gateway instant _ _ _).trans
      (busy.tally count tallies)

end Busy

/-- What holds at the start holds as long as a server serves. -/
theorem Serving.busy {backend : Backend α φ σ} {first running : Running α φ σ}
    {arrivals : List Incoming} (serving : Serving backend first running arrivals)
    (steady : backend.Steady) (begun : Busy backend first first []) :
    Busy backend first running arrivals := by
  induction serving with
  | start => exact begun
  | arrive request delivery _ arrived inductionHypothesis =>
      obtain ⟨next, accepted, busy⟩ := inductionHypothesis.arrive request delivery
      obtain rfl := Option.some.inj (accepted.symm.trans arrived)
      exact busy
  | wait instant _ waited inductionHypothesis => exact inductionHypothesis.wait steady waited

end FunctionGateway
