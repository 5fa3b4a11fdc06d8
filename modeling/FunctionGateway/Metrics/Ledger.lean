import FunctionGateway.Http.Response

/-!
# The request ledger

The ledger holds what was counted: one observation per finished request, with
its status, its method label and the route template it was counted under, and
for every template the number of requests under way. Templates are the label,
never concrete paths, so the number of series is bounded by the route table.
-/

namespace FunctionGateway.Metrics

open FunctionGateway.Http

/-- The label of a method. All extension methods share one. -/
def methodLabel (method : Method) : String :=
  if Method.standard.contains method then method.token else "other"

structure Observation where
  status : Status
  method : String
  template : String
deriving DecidableEq

/-- Observations, newest first, and the requests under way per template. -/
structure Ledger where
  observations : List Observation := []
  gauges : List (String × Int) := []

namespace Ledger

def empty : Ledger := {}

/-- Change the gauge of a template; a gauge that is not there yet starts at zero. -/
def adjust (template : String) (amount : Int) : List (String × Int) → List (String × Int)
  | [] => [(template, amount)]
  | (own, value) :: rest =>
      if own = template then (own, value + amount) :: rest
      else (own, value) :: adjust template amount rest

/-- A request under `template` has begun. -/
def enter (ledger : Ledger) (template : String) : Ledger :=
  { ledger with gauges := adjust template 1 ledger.gauges }

/-- A request under `template` has ended, one way or the other. -/
def leave (ledger : Ledger) (template : String) : Ledger :=
  { ledger with gauges := adjust template (-1) ledger.gauges }

def observe (ledger : Ledger) (observation : Observation) : Ledger :=
  { ledger with observations := observation :: ledger.observations }

/-- The number of finished requests under a template, over all methods and statuses. -/
def requestCount (ledger : Ledger) (template : String) : Nat :=
  ledger.observations.countP (·.template = template)

/-- The number of finished requests with these labels. -/
def count (ledger : Ledger) (observation : Observation) : Nat :=
  ledger.observations.count observation

/-- The number of requests under way under a template. -/
def inFlight (ledger : Ledger) (template : String) : Int :=
  (ledger.gauges.lookup template).getD 0

/-- Make the gauge of a template visible, as reading it does. -/
def touch (ledger : Ledger) (template : String) : Ledger :=
  { ledger with gauges := adjust template 0 ledger.gauges }

theorem lookup_adjust (template other : String) (amount : Int) (gauges : List (String × Int)) :
    ((adjust template amount gauges).lookup other).getD 0 =
      (gauges.lookup other).getD 0 + (if other = template then amount else 0) := by
  induction gauges with
  | nil =>
      by_cases same : other = template
      · simp [adjust, same]
      · simp [adjust, List.lookup_cons, beq_false_of_ne same, same]
  | cons first rest ih =>
      obtain ⟨own, value⟩ := first
      by_cases found : own = template
      · by_cases same : other = own
        · subst same
          simp [adjust, found]
        · have apart : other ≠ template := fun equal => same (equal.trans found.symm)
          simp [adjust, found, apart, List.lookup_cons, beq_false_of_ne apart]
      · by_cases same : other = own
        · subst same
          simp [adjust, found]
        · simp [adjust, found, List.lookup_cons, beq_false_of_ne same, ih]

theorem inFlight_enter (ledger : Ledger) (template other : String) :
    (ledger.enter template).inFlight other =
      ledger.inFlight other + (if other = template then 1 else 0) :=
  lookup_adjust template other 1 ledger.gauges

theorem inFlight_leave (ledger : Ledger) (template other : String) :
    (ledger.leave template).inFlight other =
      ledger.inFlight other + (if other = template then -1 else 0) :=
  lookup_adjust template other (-1) ledger.gauges

@[simp]
theorem inFlight_observe (ledger : Ledger) (observation : Observation) (template : String) :
    (ledger.observe observation).inFlight template = ledger.inFlight template :=
  rfl

theorem requestCount_observe (ledger : Ledger) (observation : Observation) (template : String) :
    (ledger.observe observation).requestCount template =
      ledger.requestCount template + (if observation.template = template then 1 else 0) := by
  simp [requestCount, observe, List.countP_cons]

theorem count_observe (ledger : Ledger) (observation other : Observation) :
    (ledger.observe observation).count other =
      ledger.count other + (if observation = other then 1 else 0) := by
  simp [count, observe, List.count_cons]

end Ledger

end FunctionGateway.Metrics
