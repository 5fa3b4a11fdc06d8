import FunctionGateway.Proofs.Routing.Attempts

/-!
# The methods a refusal lists

A router keeps one tree for each method, so the methods that it lists for a path it does not
answer are exactly those with a tree that does, each once and in byte order.
-/

namespace FunctionGateway.Routing

open FunctionGateway.Http
open FunctionGateway.Text

variable {α : Type}

/-- No method has two trees. -/
def Router.Keyed (router : Router α) : Prop :=
  (router.byMethod.map Prod.fst).Nodup

namespace Router

theorem keys_replaceTree (method : Method) (tree : PathTree (Endpoint α))
    (trees : List (Method × PathTree (Endpoint α))) :
    (replaceTree method tree trees).map Prod.fst =
      if method ∈ trees.map Prod.fst then trees.map Prod.fst
      else trees.map Prod.fst ++ [method] := by
  induction trees with
  | nil => rfl
  | cons first rest inductionHypothesis =>
      obtain ⟨own, old⟩ := first
      by_cases same : own = method
      · simp [replaceTree, same]
      · simp only [replaceTree, if_neg same, List.map_cons, inductionHypothesis, List.mem_cons,
          Ne.symm same, false_or]
        split <;> rfl

theorem Keyed.withTree {router : Router α} (keyed : router.Keyed) (scope : Scope)
    (tree : PathTree (Endpoint α)) : (router.withTree scope tree).Keyed := by
  cases scope with
  | any => exact keyed
  | only method =>
      rw [Keyed, Router.withTree, keys_replaceTree]
      split
      · exact keyed
      · rename_i absent
        refine List.nodup_append.mpr ⟨keyed, List.nodup_cons.mpr ⟨List.not_mem_nil, List.nodup_nil⟩,
          ?_⟩
        rintro own member other last rfl
        rw [List.mem_singleton.mp last] at member
        exact absent member

theorem Keyed.bindPattern {router : Router α} (keyed : router.Keyed) (endpoint : Endpoint α)
    (pattern : String) (scope : Scope) : (router.bindPattern endpoint pattern scope).1.Keyed := by
  rw [Router.bindPattern]
  split
  · exact keyed
  · simp only
    split
    · exact keyed.withTree scope _
    · exact keyed.withTree scope _

theorem Keyed.bindEach {endpoint : Endpoint α} {bindings : List (String × Scope)}
    {router : Router α} (keyed : router.Keyed) : (router.bindEach endpoint bindings).1.Keyed := by
  induction bindings generalizing router with
  | nil => exact keyed
  | cons pair rest inductionHypothesis =>
      obtain ⟨pattern, scope⟩ := pair
      have step := keyed.bindPattern endpoint pattern scope
      simp only [Router.bindEach]
      cases outcome : router.bindPattern endpoint pattern scope with
      | mk changed fault =>
          rw [outcome] at step
          cases fault with
          | none => exact inductionHypothesis step
          | some cause => exact step

theorem Keyed.route {router : Router α} (keyed : router.Keyed) (spec : RouteSpec)
    (handler : α) : (router.route spec handler).1.Keyed := by
  rw [Router.route]
  split
  · exact keyed
  · exact keyed.bindEach

theorem Keyed.routeAll {calls : List (RouteSpec × α)} {router : Router α}
    (keyed : router.Keyed) : (router.routeAll calls).Keyed := by
  induction calls generalizing router with
  | nil => exact keyed
  | cons call rest inductionHypothesis => exact inductionHypothesis (keyed.route call.1 call.2)

theorem Keyed.start : (Router.empty : Router α).Keyed :=
  List.nodup_nil

theorem mem_byMethod_iff {router : Router α} (keyed : router.Keyed) {method : Method}
    {tree : PathTree (Endpoint α)} :
    (method, tree) ∈ router.byMethod ↔ router.byMethod.lookup method = some tree := by
  rw [Keyed] at keyed
  generalize router.byMethod = trees at keyed ⊢
  induction trees with
  | nil => simp
  | cons first rest inductionHypothesis =>
      obtain ⟨own, old⟩ := first
      obtain ⟨fresh, later⟩ := List.nodup_cons.mp keyed
      rw [List.mem_cons, inductionHypothesis later, List.lookup_cons]
      by_cases same : method = own
      · subst same
        have absent : rest.lookup method ≠ some tree := by
          rw [Ne, ← inductionHypothesis later]
          exact fun member => fresh (List.mem_map.mpr ⟨_, member, rfl⟩)
        simp [absent, eq_comm]
      · simp [same, beq_false_of_ne same]

theorem matched_empty (path : String) :
    matched (PathTree.empty : PathTree (Endpoint α)) path = none := by
  have nothing : (Node.empty : Node (Endpoint α)).find (encodeUtf8 path) = none := by
    cases encodeUtf8 path <;> rfl
  have found : (PathTree.empty : PathTree (Endpoint α)).find path = none := by
    rw [PathTree.find]
    exact congrArg (Option.map _) nothing
  rw [matched, found]

/-- Exactly the other methods whose own tree matches are listed. -/
theorem mem_otherMethods_iff {router : Router α} (keyed : router.Keyed) (method : Method)
    (path : String) (other : Method) :
    other ∈ router.otherMethods method path ↔
      other ≠ method ∧ (matched (router.methodTree other) path).isSome = true := by
  simp only [otherMethods, List.mem_mergeSort, List.mem_map, List.mem_filter, Bool.and_eq_true,
    decide_eq_true_eq]
  constructor
  · rintro ⟨⟨own, tree⟩, ⟨member, different, heard⟩, rfl⟩
    rw [mem_byMethod_iff keyed] at member
    refine ⟨different, ?_⟩
    rw [methodTree, member]
    exact heard
  · rintro ⟨different, heard⟩
    cases own : router.byMethod.lookup other with
    | none =>
        rw [methodTree, own, Option.getD_none, matched_empty] at heard
        cases heard
    | some tree =>
        rw [methodTree, own] at heard
        exact ⟨(other, tree), ⟨(mem_byMethod_iff keyed).mpr own, different, heard⟩, rfl⟩

theorem pairwise_otherMethods {router : Router α} (keyed : router.Keyed) (method : Method)
    (path : String) :
    (router.otherMethods method path).Pairwise fun first second => first.token < second.token := by
  have distinct : (router.otherMethods method path).Nodup := by
    rw [otherMethods, (List.mergeSort_perm _ _).nodup_iff]
    exact keyed.sublist (List.filter_sublist.map Prod.fst)
  have sorted : (router.otherMethods method path).Pairwise
      fun first second => decide (first.token ≤ second.token) = true :=
    List.pairwise_mergeSort (by simpa using fun _ _ _ => String.le_trans)
      (by simpa using fun _ _ => String.le_total _ _) _
  refine (distinct.and sorted).imp ?_
  rintro ⟨first, _⟩ ⟨second, _⟩ ⟨different, before⟩
  rw [decide_eq_true_eq] at before
  rw [← String.not_le]
  intro after
  exact different (by cases String.le_antisymm before after; rfl)

end Router

/-- A sorted list of methods is told by its members. -/
theorem allowed_unique {first second : List Method}
    (sortedFirst : first.Pairwise fun left right => left.token < right.token)
    (sortedSecond : second.Pairwise fun left right => left.token < right.token)
    (same : ∀ method, method ∈ first ↔ method ∈ second) : first = second := by
  have distinct : ∀ {methods : List Method},
      methods.Pairwise (fun left right => left.token < right.token) → methods.Nodup := by
    intro methods sorted
    refine sorted.imp fun before equal => ?_
    rw [equal] at before
    exact String.lt_irrefl _ before
  have rearranged : first.Perm second :=
    (List.perm_ext_iff_of_nodup (distinct sortedFirst) (distinct sortedSecond)).mpr same
  apply List.Perm.eq_of_pairwise _ sortedFirst sortedSecond rearranged
  intro left right _ _ before after
  exact absurd (String.lt_trans before after) (String.lt_irrefl _)

end FunctionGateway.Routing
