import FunctionGateway.Proofs.Routing.Apart

/-!
# Routers with nothing to choose from

Where all routes keep clear of each other, a router is a table: a method and a path are answered
by the one specification that serves them, whatever the trees and the order of binding were.
-/

namespace FunctionGateway.Routing

open FunctionGateway.Http
open FunctionGateway.Text

variable {α : Type}

/-- Whether parameters satisfy every rule of a specification. -/
def RouteSpec.admits (spec : RouteSpec) (params : List (String × String)) : Bool :=
  (Endpoint.mk () spec.constraints).admits params

/-- A specification answers a method and a path, with these parameters. -/
structure RouteSpec.Serves (spec : RouteSpec) (method : Method) (path : String)
    (params : List (String × String)) : Prop where
  asked : spec.methods.allows method = true
  shown : ∃ pattern ∈ spec.patterns, Shows pattern path params
  admitted : spec.admits params = true

/-- What a list of specifications has for a method and a path, if nothing is to be chosen. -/
inductive Settled (calls : List (RouteSpec × α)) (method : Method) (path : String) :
    Router.Lookup α → Prop
  | found (spec : RouteSpec) (handler : α) (params : List (String × String)) :
      (spec, handler) ∈ calls →
      spec.Serves method path params →
      Settled calls method path (.found handler params)
  | others (allowed : List Method) :
      (∀ call ∈ calls, ∀ params, ¬ call.1.Serves method path params) →
      allowed ≠ [] →
      allowed.Pairwise (fun first second => first.token < second.token) →
      (∀ other, other ∈ allowed ↔
        ∃ call ∈ calls, ∃ params, call.1.Serves other path params) →
      Settled calls method path (.methodNotAllowed allowed)
  | nowhere :
      (∀ other, ∀ call ∈ calls, ∀ params, ¬ call.1.Serves other path params) →
      Settled calls method path .notFound

/-! ## Trees of a method set -/

theorem allows_iff {methods : MethodSet} {method : Method} :
    methods.allows method = true ↔
      Scope.only method ∈ scopes methods ∨ Scope.any ∈ scopes methods := by
  cases methods with
  | any => simp [MethodSet.allows, scopes]
  | only list => simp [MethodSet.allows, scopes]

/-! ## Lookups -/

section Lookup

variable {router : Router α} {calls : List (RouteSpec × α)}

theorem bound_acceptedAll_iff {binding : Binding α} :
    Bound (acceptedAll calls) binding ↔
      ∃ spec handler, (spec, handler) ∈ calls ∧ binding.source ∈ spec.patterns ∧
        binding.scope ∈ scopes spec.methods ∧ binding.endpoint = ⟨handler, spec.constraints⟩ := by
  constructor
  · rintro ⟨attempt, member, _, rfl⟩
    obtain ⟨⟨spec, handler⟩, inCalls, member⟩ := List.mem_flatMap.mp member
    obtain ⟨⟨pattern, scope⟩, inBindings, rfl⟩ := List.mem_map.mp member
    obtain ⟨_, inPatterns, inScopes⟩ := List.mem_flatMap.mp inBindings
    obtain ⟨_, asked, same⟩ := List.mem_map.mp inScopes
    obtain ⟨rfl, rfl⟩ := Prod.mk.inj same
    exact ⟨spec, handler, inCalls, inPatterns, asked, rfl⟩
  · rintro ⟨spec, handler, inCalls, inPatterns, asked, endpoint⟩
    refine ⟨⟨binding, true⟩, List.mem_flatMap.mpr ⟨_, inCalls, ?_⟩, rfl, rfl⟩
    refine List.mem_map.mpr ⟨(binding.source, binding.scope), ?_, ?_⟩
    · exact List.mem_flatMap.mpr ⟨_, inPatterns, List.mem_map_of_mem asked⟩
    · rw [← endpoint]

theorem accepted_acceptedAll : ∀ attempt ∈ acceptedAll calls, attempt.accepted = true := by
  intro attempt member
  obtain ⟨_, _, member⟩ := List.mem_flatMap.mp member
  obtain ⟨_, _, rfl⟩ := List.mem_map.mp member
  rfl

theorem Distinct.pairwise (distinct : Distinct calls) :
    (acceptedAll calls).Pairwise fun first second => apart first.pair second.pair = true := by
  have clear := distinct.separated.apart
  rwa [← pair_acceptedAll, List.pairwise_map] at clear

/-- A tree answers a path by the only specification in it that shows it. -/
theorem Router.Holds.matched_iff (holds : router.Holds (acceptedAll calls))
    (distinct : Distinct calls) (scope : Scope) (path : String) (handler : α)
    (params : List (String × String)) :
    matched (router.tree scope) path = some (handler, params) ↔
      ∃ spec, (spec, handler) ∈ calls ∧ scope ∈ scopes spec.methods ∧
        (∃ pattern ∈ spec.patterns, Shows pattern path params) ∧ spec.admits params = true := by
  rw [holds.tracks.matched_iff_shows distinct.pairwise accepted_acceptedAll]
  constructor
  · rintro ⟨binding, bound, rfl, showing, admits, rfl⟩
    obtain ⟨spec, own, inCalls, inPatterns, asked, endpoint⟩ := bound_acceptedAll_iff.mp bound
    rw [endpoint] at admits ⊢
    exact ⟨spec, inCalls, asked, ⟨_, inPatterns, showing⟩, admits⟩
  · rintro ⟨spec, inCalls, asked, ⟨pattern, inPatterns, showing⟩, admits⟩
    refine ⟨⟨scope, pattern, ⟨handler, spec.constraints⟩⟩, ?_, rfl, showing, admits, rfl⟩
    exact bound_acceptedAll_iff.mpr ⟨spec, handler, inCalls, inPatterns, asked, rfl⟩

/-- A specification serves a method in the tree of that method, or in the one for all. -/
theorem Router.Holds.serves_iff (holds : router.Holds (acceptedAll calls))
    (distinct : Distinct calls) (method : Method) (path : String) (handler : α)
    (params : List (String × String)) :
    (∃ spec, (spec, handler) ∈ calls ∧ spec.Serves method path params) ↔
      matched (router.methodTree method) path = some (handler, params) ∨
        matched router.any path = some (handler, params) := by
  have own := holds.matched_iff distinct (.only method) path handler params
  have any := holds.matched_iff distinct .any path handler params
  change matched (router.methodTree method) path = _ ↔ _ at own
  change matched router.any path = _ ↔ _ at any
  rw [own, any]
  constructor
  · rintro ⟨spec, inCalls, asked, shown, admits⟩
    rcases allows_iff.mp asked with alone | all
    · exact Or.inl ⟨spec, inCalls, alone, shown, admits⟩
    · exact Or.inr ⟨spec, inCalls, all, shown, admits⟩
  · rintro (⟨spec, inCalls, alone, shown, admits⟩ | ⟨spec, inCalls, all, shown, admits⟩)
    · exact ⟨spec, inCalls, allows_iff.mpr (Or.inl alone), shown, admits⟩
    · exact ⟨spec, inCalls, allows_iff.mpr (Or.inr all), shown, admits⟩

/-- What is bound for all methods and matches a path leaves no room for anything else. -/
theorem Router.Holds.matched_method_eq_none (holds : router.Holds (acceptedAll calls))
    (distinct : Distinct calls) {method : Method} {path : String}
    {found : α × List (String × String)} (any : matched router.any path = some found) :
    matched (router.methodTree method) path = none := by
  cases own : matched (router.methodTree method) path with
  | none => rfl
  | some other =>
      have showing := holds.tracks.matched_iff_shows distinct.pairwise accepted_acceptedAll
      obtain ⟨binding, bound, onAny, ⟨_, _, spelled, fits, _⟩, _⟩ :=
        (showing .any path found.1 found.2).mp any
      obtain ⟨rival, boundRival, onOwn, ⟨_, _, spelledRival, fitsRival, _⟩, _⟩ :=
        (showing (.only method) path other.1 other.2).mp own
      have same := holds.tracks.eq_of_fits distinct.pairwise bound boundRival
        (onAny ▸ Scope.any_meets _) spelled spelledRival fits fitsRival
      rw [same, onOwn] at onAny
      exact nomatch onAny

theorem Router.Holds.lookup_of_serves (holds : router.Holds (acceptedAll calls))
    (distinct : Distinct calls) {spec : RouteSpec} {handler : α} {method : Method} {path : String}
    {params : List (String × String)} (inCalls : (spec, handler) ∈ calls)
    (serves : spec.Serves method path params) :
    router.lookup method path = .found handler params := by
  rcases (holds.serves_iff distinct method path handler params).mp ⟨spec, inCalls, serves⟩ with
    own | any
  · rw [Router.lookup, own]
  · rw [Router.lookup, holds.matched_method_eq_none distinct any, any]

/-- Where nothing serves the method of a request, the trees of other methods are those that
serve. -/
theorem Router.Holds.mem_otherMethods_iff (holds : router.Holds (acceptedAll calls))
    (distinct : Distinct calls) {method : Method} {path : String}
    (silent : ∀ call ∈ calls, ∀ params, ¬ call.1.Serves method path params) (other : Method) :
    other ∈ router.otherMethods method path ↔
      ∃ call ∈ calls, ∃ params, call.1.Serves other path params := by
  rw [Router.mem_otherMethods_iff holds.keyed]
  constructor
  · rintro ⟨_, heard⟩
    obtain ⟨⟨handler, params⟩, found⟩ := Option.isSome_iff_exists.mp heard
    obtain ⟨spec, inCalls, serves⟩ :=
      (holds.serves_iff distinct other path handler params).mpr (Or.inl found)
    exact ⟨_, inCalls, params, serves⟩
  · rintro ⟨⟨spec, handler⟩, inCalls, params, serves⟩
    refine ⟨?_, ?_⟩
    · rintro rfl
      exact silent _ inCalls params serves
    · rcases (holds.serves_iff distinct other path handler params).mp ⟨spec, inCalls, serves⟩ with
        own | any
      · exact Option.isSome_iff_exists.mpr ⟨_, own⟩
      · obtain ⟨spec, inCalls, serves⟩ :=
          (holds.serves_iff distinct method path handler params).mpr (Or.inr any)
        exact absurd serves (silent _ inCalls params)

theorem Router.Holds.lookup_of_silent (holds : router.Holds (acceptedAll calls))
    (distinct : Distinct calls) {method : Method} {path : String}
    (silent : ∀ call ∈ calls, ∀ params, ¬ call.1.Serves method path params) :
    router.lookup method path =
      match router.otherMethods method path with
      | [] => .notFound
      | allowed => .methodNotAllowed allowed := by
  have none : ∀ found, ¬ (matched (router.methodTree method) path = some found ∨
      matched router.any path = some found) := by
    rintro ⟨handler, params⟩ matched
    obtain ⟨spec, inCalls, serves⟩ :=
      (holds.serves_iff distinct method path handler params).mpr matched
    exact silent _ inCalls params serves
  have own := Option.eq_none_iff_forall_ne_some.mpr fun found => not_or.mp (none found) |>.1
  have any := Option.eq_none_iff_forall_ne_some.mpr fun found => not_or.mp (none found) |>.2
  cases others : router.otherMethods method path <;>
    simp only [Router.lookup, own, any, others]

/-- A router answers exactly what its specifications settle. -/
theorem Router.Holds.lookup_eq_iff_settled (holds : router.Holds (acceptedAll calls))
    (distinct : Distinct calls) (method : Method) (path : String) (answer : Router.Lookup α) :
    router.lookup method path = answer ↔ Settled calls method path answer := by
  constructor
  · rintro rfl
    by_cases heard : ∃ call ∈ calls, ∃ params, call.1.Serves method path params
    · obtain ⟨⟨spec, handler⟩, inCalls, params, serves⟩ := heard
      rw [holds.lookup_of_serves distinct inCalls serves]
      exact Settled.found spec handler params inCalls serves
    · have silent : ∀ call ∈ calls, ∀ params, ¬ call.1.Serves method path params :=
        fun call member params serves => heard ⟨call, member, params, serves⟩
      have members := holds.mem_otherMethods_iff distinct silent
      have sorted := Router.pairwise_otherMethods holds.keyed method path
      rw [holds.lookup_of_silent distinct silent]
      cases others : router.otherMethods method path with
      | nil =>
          refine Settled.nowhere fun other call member params serves => ?_
          have inside := (members other).mpr ⟨call, member, params, serves⟩
          rw [others] at inside
          exact absurd inside List.not_mem_nil
      | cons first rest =>
          rw [others] at members sorted
          exact Settled.others _ silent (List.cons_ne_nil _ _) sorted members
  · intro settled
    cases settled with
    | found spec handler params inCalls serves =>
        exact holds.lookup_of_serves distinct inCalls serves
    | others allowed silent nonempty sorted members =>
        have same : router.otherMethods method path = allowed :=
          allowed_unique (Router.pairwise_otherMethods holds.keyed method path) sorted fun other =>
            (holds.mem_otherMethods_iff distinct silent other).trans (members other).symm
        rw [holds.lookup_of_silent distinct silent, same]
        cases allowed with
        | nil => exact absurd rfl nonempty
        | cons first rest => rfl
    | nowhere silent =>
        have empty : router.otherMethods method path = [] := by
          refine List.eq_nil_iff_forall_not_mem.mpr fun other member => ?_
          obtain ⟨call, inCalls, params, serves⟩ :=
            (holds.mem_otherMethods_iff distinct (silent method) other).mp member
          exact silent other call inCalls params serves
        rw [holds.lookup_of_silent distinct (silent method), empty]

end Lookup

/-- Specifications that keep clear of each other are all bound, and what they settle is what
the router answers. -/
theorem Router.routeEach_settles {calls : List (RouteSpec × α)} (distinct : Distinct calls) :
    ∃ router, Router.empty.routeEach calls = (router, none) ∧
      ∀ method path answer,
        router.lookup method path = answer ↔ Settled calls method path answer := by
  obtain ⟨router, bound, holds⟩ :=
    Router.Holds.start.routeEach distinct.separated distinct.asks
  exact ⟨router, bound, holds.lookup_eq_iff_settled distinct⟩

end FunctionGateway.Routing
