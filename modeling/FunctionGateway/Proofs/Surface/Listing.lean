import FunctionGateway.Proofs.Routing.Table
import FunctionGateway.Proofs.Surface.Binding
import Mathlib.Data.List.Sort

/-!
# The route table of the surface

Whatever is bound without a fault is listed, in order and once, and nothing else is.  The
table of a bound surface can therefore be read off the slots that are filled, and two tables
with the same rows are the same table.
-/

namespace FunctionGateway

open FunctionGateway.Routing

variable {α β : Type}

/-! ## What is bound is listed -/

namespace Routing

/-- The rows that a specification has in the table. -/
def RouteSpec.rows (spec : RouteSpec) : List RouteEntry :=
  spec.bindings.map fun (pattern, scope) => ⟨pattern, scope.label⟩

namespace Router

/-- The table lists these rows, in order and once. -/
structure Lists (router : Router α) (rows : List RouteEntry) : Prop where
  sorted : router.table.Pairwise fun first second => first.before second = true
  member : ∀ row, row ∈ router.table ↔ row ∈ rows

theorem Lists.empty : (Router.empty : Router α).Lists [] :=
  ⟨List.Pairwise.nil, fun _ => Iff.rfl⟩

/-- Rows tell a table. -/
theorem Lists.table_eq {router : Router α} {other : Router β} {rows : List RouteEntry}
    (lists : router.Lists rows) (listsToo : other.Lists rows) : router.table = other.table := by
  have irreflexive : Std.Irrefl fun first second : RouteEntry => first.before second = true :=
    ⟨RouteEntry.before_irrefl⟩
  have antisymmetric :
      Std.Antisymm fun first second : RouteEntry => first.before second = true :=
    ⟨fun first _ before behind =>
      absurd (RouteEntry.before_trans before behind) (RouteEntry.before_irrefl first)⟩
  exact lists.sorted.eq_of_mem_iff listsToo.sorted
    fun row => (lists.member row).trans (listsToo.member row).symm

variable {router changed : Router α} {rows : List RouteEntry}

theorem Lists.bindPattern (lists : router.Lists rows) {endpoint : Endpoint α} {pattern : String}
    {scope : Scope} (bound : router.bindPattern endpoint pattern scope = (changed, none)) :
    changed.Lists (rows ++ [⟨pattern, scope.label⟩]) := by
  rw [Router.bindPattern] at bound
  split at bound
  · cases (Prod.mk.inj bound).2
  · simp only at bound
    split at bound
    · cases (Prod.mk.inj bound).2
    · obtain rfl := (Prod.mk.inj bound).1
      constructor
      · rw [table_withTree]
        exact RouteEntry.sorted_insertInto _ lists.sorted
      · intro row
        rw [table_withTree, RouteEntry.mem_insertInto, lists.member, List.mem_append,
          List.mem_singleton, or_comm]

theorem Lists.bindEach {endpoint : Endpoint α} {pairs : List (String × Scope)}
    (lists : router.Lists rows) (bound : router.bindEach endpoint pairs = (changed, none)) :
    changed.Lists (rows ++ pairs.map fun (pattern, scope) => ⟨pattern, scope.label⟩) := by
  induction pairs generalizing router rows with
  | nil =>
      obtain rfl := (Prod.mk.inj bound).1
      simpa using lists
  | cons pair rest inductionHypothesis =>
      obtain ⟨pattern, scope⟩ := pair
      rw [Router.bindEach] at bound
      generalize here : router.bindPattern endpoint pattern scope = outcome at bound
      obtain ⟨next, fault⟩ := outcome
      cases fault with
      | some fault => cases (Prod.mk.inj bound).2
      | none =>
          rw [List.map_cons, List.append_cons]
          exact inductionHypothesis (lists.bindPattern here) bound

/-- A specification that is bound is listed, whatever it is bound to. -/
theorem Lists.route (lists : router.Lists rows) {spec : RouteSpec} {handler : α}
    (bound : router.route spec handler = (changed, none)) : changed.Lists (rows ++ spec.rows) := by
  rw [Router.route] at bound
  split at bound
  · cases (Prod.mk.inj bound).2
  · exact lists.bindEach bound

end Router

end Routing

/-! ## Rows of the surface -/

/-- The rows that a row of the surface has in the table, where these slots are filled. -/
def SurfaceRow.rows (filled : Capability → Bool) (row : SurfaceRow) : List RouteEntry :=
  if filled row.capability then
    row.route.rows
  else
    match row.absent with
    | .notImplemented =>
        (Surface.named row.route.template (.one .get)).withOptionalTail.rows
    | _ => []

namespace Surface

/-- The rows of the surface and of the exposition. -/
def rows (filled : Capability → Bool) : List RouteEntry :=
  table.flatMap (SurfaceRow.rows filled) ++ metricsRoute.rows

variable {capabilities : CapabilitySet (Service α)} {deadline : Option Duration}
  {auth : Option Credentials} {router changed : Router (Service α)}

theorem rows_of_bound {row : SurfaceRow} {spec : RouteSpec} {service : Service α}
    {guarded : Bool} (bound : contribution capabilities row = .bound spec service guarded) :
    row.rows capabilities.contains = spec.rows := by
  rw [SurfaceRow.rows, CapabilitySet.contains]
  cases filled : capabilities.get? row.capability with
  | some slot =>
      simp only [contribution, filled, Contribution.bound.injEq] at bound
      rw [← bound.1]
      rfl
  | none =>
      cases absent : row.absent with
      | fail => simp [contribution, filled, absent] at bound
      | skip => simp [contribution, filled, absent] at bound
      | notImplemented =>
          simp only [contribution, filled, absent, Contribution.bound.injEq] at bound
          rw [← bound.1]
          rfl

theorem rows_of_withheld {row : SurfaceRow}
    (withheld : contribution capabilities row = .withheld) :
    row.rows capabilities.contains = [] := by
  rw [SurfaceRow.rows, CapabilitySet.contains]
  cases filled : capabilities.get? row.capability with
  | some slot => simp [contribution, filled] at withheld
  | none =>
      cases absent : row.absent with
      | fail => rfl
      | skip => rfl
      | notImplemented => simp [contribution, filled, absent] at withheld

/-- A row that does not end the binding adds its rows to the table. -/
theorem RowBound.lists {row : SurfaceRow} {listed : List RouteEntry}
    (step : RowBound capabilities deadline auth router row changed) (lists : router.Lists listed) :
    changed.Lists (listed ++ row.rows capabilities.contains) := by
  cases step with
  | withheld contributed =>
      rw [rows_of_withheld contributed, List.append_nil]
      exact lists
  | bound spec service guarded next contributed routed =>
      rw [rows_of_bound contributed]
      exact lists.route routed

theorem lists_bindRows {listed : List RouteEntry} (lists : router.Lists listed)
    {remaining : List SurfaceRow}
    (bound : bindRows capabilities deadline auth router remaining = (changed, none)) :
    changed.Lists (listed ++ remaining.flatMap (SurfaceRow.rows capabilities.contains)) := by
  induction remaining generalizing router listed with
  | nil =>
      obtain rfl := (Prod.mk.inj bound).1
      simpa using lists
  | cons row rest inductionHypothesis =>
      obtain ⟨next, step, others⟩ := bindRows_cons_eq_none_iff.mp bound
      rw [List.flatMap_cons, ← List.append_assoc]
      exact inductionHypothesis (step.lists lists) others

/-- A bound surface lists what the filled slots have, and the exposition. -/
theorem lists_bind (bound : bind Router.empty capabilities deadline auth = (router, none)) :
    router.Lists (rows capabilities.contains) := by
  obtain ⟨changed, through, last⟩ := bind_eq_none_iff_rows.mp bound
  exact (lists_bindRows Router.Lists.empty through).route last

end Surface

end FunctionGateway
