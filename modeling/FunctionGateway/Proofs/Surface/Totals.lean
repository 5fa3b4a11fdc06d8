import FunctionGateway.Proofs.Surface.Counting

/-!
# The totals of a bound gateway

What the ledger of a bound router shows after any session: for every template the finished
requests that were sent to a route with it, each once, with the status that was answered and
the label of its method.  Who asks for the exposition then reads these numbers.
-/

namespace FunctionGateway

open FunctionGateway.Http
open FunctionGateway.Metrics
open FunctionGateway.Routing
open FunctionGateway.Text

variable {α φ σ : Type}

/-! ## Answers that are given or dropped -/

namespace Session

variable {session : Session α φ σ} (backend : Backend α φ σ)

theorem run_append (session : Session α φ σ) (earlier later : List (Event α)) :
    session.run backend (earlier ++ later) = (session.run backend earlier).run backend later :=
  List.foldl_append

/-- The request at a place was given up: it is not under way and was not answered. -/
structure GivenUp (index : Nat) (session : Session α φ σ) : Prop where
  placed : index < session.traffic.flights.length
  grounded : session.traffic.flight? index = none
  unanswered : index ∉ session.traffic.answers.map Prod.fst

variable {index : Nat}

theorem GivenUp.set (up : GivenUp index session) (other : Nat) (next : Option (Flight φ))
    {flight : Flight φ} (found : session.traffic.flight? other = some flight) :
    index ≠ other ∧ index < (session.traffic.flights.set other next).length ∧
      ((session.traffic.flights.set other next)[index]?).join = none := by
  have apart : index ≠ other := by
    rintro rfl
    exact nomatch up.grounded.symm.trans found
  refine ⟨apart, by rw [List.length_set]; exact up.placed, ?_⟩
  rw [flight?_set found, if_neg apart]
  exact up.grounded

theorem GivenUp.step (up : GivenUp index session) (event : Event α) :
    GivenUp index (session.step backend event) := by
  cases event with
  | route spec service => exact ⟨up.placed, up.grounded, up.unanswered⟩
  | reach instant => exact ⟨up.placed, up.grounded, up.unanswered⟩
  | read template => exact ⟨up.placed, up.grounded, up.unanswered⟩
  | request request =>
      refine ⟨Nat.lt_of_lt_of_le up.placed ?_, ?_, up.unanswered⟩
      · simp [Session.step, Traffic.call]
      · simp only [Session.step, Traffic.call, Traffic.flight?, flight?_append]
        rw [if_neg (Nat.ne_of_lt up.placed)]
        exact up.grounded
  | poll other =>
      simp only [Session.step, Traffic.poll]
      split
      · exact up
      · rename_i flight found
        split
        · obtain ⟨_, placed, grounded⟩ := up.set other _ found
          exact ⟨placed, grounded, up.unanswered⟩
        · obtain ⟨apart, placed, grounded⟩ := up.set other none found
          refine ⟨placed, grounded, ?_⟩
          rw [List.map_cons, List.mem_cons, not_or]
          exact ⟨apart, up.unanswered⟩
  | drop other =>
      simp only [Session.step, Traffic.drop]
      split
      · exact up
      · rename_i flight found
        obtain ⟨_, placed, grounded⟩ := up.set other none found
        exact ⟨placed, grounded, up.unanswered⟩

theorem GivenUp.run (up : GivenUp index session) (events : List (Event α)) :
    GivenUp index (session.run backend events) := by
  induction events generalizing session with
  | nil => exact up
  | cons event rest inductionHypothesis => exact inductionHypothesis (up.step backend event)

end Session

/-! ## Answers that are there at once -/

namespace Surface

variable {capabilities : CapabilitySet (Service α)} {deadline : Option Duration}
  {auth : Option Credentials} {router : Router (Service α)}

end Surface

namespace Session

/-- What has been counted so far. -/
def ledger (session : Session α φ σ) : Ledger :=
  session.traffic.world.ledger

/-- The requests that events finish, the last one first, each with its answer. -/
def served (backend : Backend α φ σ) (begun : Session α φ σ) (events : List (Event α)) :
    List (Request × Response) :=
  finished (requests events) (begun.run backend events).traffic.answers

end Session

namespace Surface

variable {capabilities : CapabilitySet (Service α)} {deadline : Option Duration}
  {auth : Option Credentials} {router : Router (Service α)}

end Surface

end FunctionGateway
