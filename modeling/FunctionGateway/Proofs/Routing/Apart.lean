import FunctionGateway.Proofs.Routing.Allowed
import FunctionGateway.Proofs.Routing.Separate
import FunctionGateway.Proofs.Routing.Showing

/-!
# Routes bound apart from each other

Patterns that are separate, or in trees that no request asks together, are all accepted, in
whatever order they are bound.  A router that holds nothing else answers every path by the one
route whose pattern matches it; neither trees nor an order of patterns have a part in that.
-/

namespace FunctionGateway.Routing

open FunctionGateway.Http
open FunctionGateway.Text

variable {α : Type}

/-! ## Patterns in trees -/

/-- The route of a regular pattern. -/
def Pattern.route? (source : String) : Option Route :=
  match Pattern.read? source with
  | .ok pattern => if pattern.route.plain then some pattern.route else none
  | .error _ => none

theorem Pattern.route?_eq_some {source : String} {route : Route}
    (regular : Pattern.route? source = some route) :
    ∃ pattern, Pattern.read? source = .ok pattern ∧ pattern.route = route ∧
      route.plain = true := by
  rw [Pattern.route?] at regular
  cases read : Pattern.read? source with
  | error fault =>
      rw [read] at regular
      exact nomatch regular
  | ok pattern =>
      simp only [read] at regular
      split at regular
      · rename_i plain
        obtain rfl := Option.some.inj regular
        exact ⟨pattern, rfl, rfl, plain⟩
      · exact nomatch regular

/-- The route table may show two trees under labels that get in the way of each other. -/
def Scope.meets (first second : Scope) : Bool :=
  first.label = "*" || second.label = "*" || first.label = second.label

theorem Scope.meets_comm (first second : Scope) : first.meets second = second.meets first := by
  rw [Scope.meets, Scope.meets, Bool.or_comm (decide (first.label = "*"))]
  simp only [eq_comm]

theorem Scope.meets_self (scope : Scope) : scope.meets scope = true := by
  simp [Scope.meets]

theorem Scope.any_meets (scope : Scope) : Scope.any.meets scope = true := by
  simp [Scope.meets, Scope.label]

/-- Two patterns in trees keep clear of each other. -/
def apart (first second : String × Scope) : Bool :=
  !first.2.meets second.2 ||
    match Pattern.route? first.1, Pattern.route? second.1 with
    | some route, some other => route.separate other
    | _, _ => false

theorem apart_comm (first second : String × Scope) : apart first second = apart second first := by
  rw [apart, apart, Scope.meets_comm]
  cases Pattern.route? first.1 with
  | none => cases Pattern.route? second.1 <;> rfl
  | some route =>
      cases Pattern.route? second.1 with
      | none => rfl
      | some other => simp only [Route.separate_comm route other]

theorem separate_of_apart {first second : String × Scope} (clear : apart first second = true)
    (meets : first.2.meets second.2 = true) :
    ∃ route other, Pattern.route? first.1 = some route ∧ Pattern.route? second.1 = some other ∧
      route.separate other = true := by
  rw [apart, meets, Bool.not_true, Bool.false_or] at clear
  split at clear
  · rename_i route other isRoute isOther
    exact ⟨route, other, isRoute, isOther, clear⟩
  · exact nomatch clear

theorem not_apart_of_same {first second : String × Scope} (same : first.1 = second.1)
    (meets : first.2.meets second.2 = true) : apart first second = false := by
  rw [← Bool.not_eq_true]
  intro clear
  obtain ⟨route, other, isRoute, isOther, separate⟩ := separate_of_apart clear meets
  rw [same, isOther] at isRoute
  cases isRoute
  cases separate.symm.trans route.not_separate_self

instance (source : String) : Decidable (Rooted source) :=
  decidable_of_iff (source.toList.head? = some '/') (by
    rw [rooted_iff, List.head?_eq_some_iff])

/-- Patterns in trees, each regular, that keep clear of each other. -/
structure Separated (pairs : List (String × Scope)) : Prop where
  rooted : ∀ pair ∈ pairs, Rooted pair.1
  regular : ∀ pair ∈ pairs, (Pattern.route? pair.1).isSome = true
  apart : pairs.Pairwise fun first second => apart first second = true

theorem Separated.sublist {pairs more : List (String × Scope)} (separated : Separated more)
    (inside : pairs.Sublist more) : Separated pairs where
  rooted := fun pair member => separated.rooted pair (inside.subset member)
  regular := fun pair member => separated.regular pair (inside.subset member)
  apart := separated.apart.sublist inside

def Attempt.pair (attempt : Attempt α) : String × Scope :=
  (attempt.source, attempt.scope)

/-! ## Everything is accepted -/

/-- A router that holds what is on record, in its trees and in its table. -/
structure Router.Holds (router : Router α) (log : List (Attempt α)) : Prop where
  tracks : Tracks router.tree log
  keyed : router.Keyed
  tabled : ∀ entry ∈ router.table, ∃ attempt ∈ log,
    entry = ⟨attempt.source, attempt.scope.label⟩

theorem Router.Holds.start : (Router.empty : Router α).Holds [] where
  tracks := Tracks.start
  keyed := Router.Keyed.start
  tabled := nofun

/-- The record of binding specifications all of whose patterns are accepted. -/
def RouteSpec.accepted (spec : RouteSpec) (handler : α) : List (Attempt α) :=
  spec.bindings.map fun (pattern, scope) =>
    ⟨⟨scope, pattern, ⟨handler, spec.constraints⟩⟩, true⟩

theorem RouteSpec.pair_accepted (spec : RouteSpec) (handler : α) :
    (spec.accepted handler).map Attempt.pair = spec.bindings := by
  rw [RouteSpec.accepted, List.map_map]
  exact List.map_id spec.bindings

section Accepting

variable {router : Router α} {log : List (Attempt α)}

/-- A tree takes a regular pattern that keeps clear of all that was tried in it. -/
theorem Tracks.fault_eq_none {trees : Scope → PathTree (Endpoint α)} (tracks : Tracks trees log)
    {binding : Binding α} {pattern : Pattern} (read : Pattern.read? binding.source = .ok pattern)
    (plain : pattern.route.plain = true)
    (clear : ∀ earlier ∈ log, apart earlier.pair (binding.source, binding.scope) = true) :
    ((trees binding.scope).insert pattern binding.endpoint).fault = none := by
  obtain ⟨_, grows⟩ := PathTree.insert_grows (tracks.stems binding.scope)
    (tracks.unended binding.scope) pattern binding.endpoint
    (fun other _ => Route.cuts_of_plain plain other)
  cases fault : ((trees binding.scope).insert pattern binding.endpoint).fault with
  | none => rfl
  | some cause =>
      rw [fault] at grows
      rcases grows.1 with notPlain | ⟨_, ⟨earlier, member, scope, own, readOwn, rfl⟩, clash⟩
      · cases notPlain.symm.trans plain
      · obtain ⟨route, other, isRoute, isOther, separate⟩ :=
          separate_of_apart (clear earlier member) (scope ▸ Scope.meets_self _)
        obtain ⟨_, readRoute, rfl, _⟩ := Pattern.route?_eq_some isRoute
        obtain ⟨_, readOther, rfl, _⟩ := Pattern.route?_eq_some isOther
        cases readOwn.symm.trans readRoute
        cases read.symm.trans readOther
        rw [Route.separate_comm] at separate
        cases clash.symm.trans (Route.not_clashes_of_separate separate)

theorem Router.Holds.bindPattern (holds : router.Holds log) (binding : Binding α)
    (rooted : Rooted binding.source)
    (regular : (Pattern.route? binding.source).isSome = true)
    (clear : ∀ earlier ∈ log, apart earlier.pair (binding.source, binding.scope) = true) :
    ∃ changed, router.bindPattern binding.endpoint binding.source binding.scope =
        (changed, none) ∧
      changed.Holds (log ++ [⟨binding, true⟩]) := by
  obtain ⟨route, isRoute⟩ := Option.isSome_iff_exists.mp regular
  obtain ⟨pattern, read, rfl, plain⟩ := Pattern.route?_eq_some isRoute
  have taken := holds.tracks.fault_eq_none read plain clear
  have tracks := holds.tracks.bindPattern binding rooted (by
    rintro earlier _ ⟨_, own, other, readOwn, _, cuts⟩
    cases read.symm.trans readOwn
    cases cuts.symm.trans (Route.cuts_of_plain plain other.route))
  have keyed := holds.keyed.bindPattern binding.endpoint binding.source binding.scope
  simp only [Router.bindPattern, read, taken] at tracks keyed ⊢
  refine ⟨_, rfl, tracks, keyed, fun entry member => ?_⟩
  rcases (RouteEntry.mem_insertInto _ _ _).mp member with rfl | before
  · exact ⟨⟨binding, true⟩, List.mem_append_right log List.mem_cons_self, rfl⟩
  · have unchanged : (router.withTree binding.scope
        ((router.tree binding.scope).insert pattern binding.endpoint).part).table =
          router.table := by
      cases binding.scope <;> rfl
    rw [unchanged] at before
    obtain ⟨attempt, inside, same⟩ := holds.tabled entry before
    exact ⟨attempt, List.mem_append_left _ inside, same⟩

theorem Router.Holds.bindEach {endpoint : Endpoint α} {pairs : List (String × Scope)}
    (holds : router.Holds log) (separated : Separated (log.map Attempt.pair ++ pairs)) :
    ∃ changed, router.bindEach endpoint pairs = (changed, none) ∧
      changed.Holds (log ++ pairs.map fun (pattern, scope) =>
        ⟨⟨scope, pattern, endpoint⟩, true⟩) := by
  induction pairs generalizing router log with
  | nil => exact ⟨router, rfl, by simpa using holds⟩
  | cons pair rest inductionHypothesis =>
      obtain ⟨pattern, scope⟩ := pair
      have inside : (pattern, scope) ∈ log.map Attempt.pair ++ (pattern, scope) :: rest :=
        List.mem_append_right _ List.mem_cons_self
      have clear : ∀ earlier ∈ log, apart earlier.pair (pattern, scope) = true :=
        fun earlier member => (List.pairwise_append.mp separated.apart).2.2 earlier.pair
          (List.mem_map_of_mem member) _ List.mem_cons_self
      have rooted : Rooted pattern := separated.rooted (pattern, scope) inside
      have regular : (Pattern.route? pattern).isSome = true :=
        separated.regular (pattern, scope) inside
      obtain ⟨changed, bound, holdsNow⟩ :=
        holds.bindPattern ⟨scope, pattern, endpoint⟩ rooted regular clear
      dsimp only at bound
      have later : Separated
          ((log ++ [(⟨⟨scope, pattern, endpoint⟩, true⟩ : Attempt α)]).map Attempt.pair ++
            rest) := by
        rw [List.map_append, List.append_assoc]
        exact separated
      obtain ⟨complete, done, holdsThen⟩ := inductionHypothesis holdsNow later
      refine ⟨complete, ?_, ?_⟩
      · rw [Router.bindEach, bound]
        exact done
      · rw [List.map_cons, List.append_cons]
        exact holdsThen

/-- No pattern of a specification that keeps clear of the others is taken. -/
theorem Router.Holds.conflict?_eq_none (holds : router.Holds log) {spec : RouteSpec}
    (separated : Separated (log.map Attempt.pair ++ spec.bindings))
    (asks : scopes spec.methods ≠ []) : router.conflict? spec = none := by
  have clear : ∀ attempt ∈ log, ∀ pair ∈ spec.bindings, apart attempt.pair pair = true :=
    fun attempt member => (List.pairwise_append.mp separated.apart).2.2 attempt.pair
      (List.mem_map_of_mem member)
  -- A label in the table belongs to a tree that the specification does not ask for.
  have distant : ∀ pattern ∈ spec.patterns, ∀ scope ∈ scopes spec.methods,
      ∀ entry ∈ router.table, entry.pattern = pattern →
        entry.method ≠ "*" ∧ scope.label ≠ "*" ∧ entry.method ≠ scope.label := by
    rintro pattern inside scope asked entry tabled rfl
    obtain ⟨attempt, member, rfl⟩ := holds.tabled entry tabled
    have pair : (attempt.source, scope) ∈ spec.bindings :=
      List.mem_flatMap.mpr ⟨_, inside, List.mem_map_of_mem asked⟩
    have notMeets : attempt.scope.meets scope = false := by
      rw [← Bool.not_eq_true]
      intro meets
      have never : apart attempt.pair (attempt.source, scope) = false :=
        not_apart_of_same rfl meets
      exact nomatch never.symm.trans (clear attempt member _ pair)
    simpa [Scope.meets, and_assoc] using notMeets
  rw [Router.conflict?, List.findSome?_eq_none_iff]
  intro pattern inside
  rw [Option.map_eq_none_iff]
  cases methods : spec.methods with
  | any =>
      rw [Router.takenBy?, List.head?_eq_none_iff, List.map_eq_nil_iff, List.filter_eq_nil_iff]
      intro entry tabled same
      have asked : Scope.any ∈ scopes spec.methods := by
        rw [methods]
        exact List.mem_singleton.mpr rfl
      exact absurd rfl (distant pattern inside .any asked entry tabled (of_decide_eq_true same)).2.1
  | only list =>
      rw [Router.takenBy?, List.find?_eq_none]
      intro label bound
      obtain ⟨entry, member, rfl⟩ := List.mem_map.mp bound
      obtain ⟨tabled, same⟩ := List.mem_filter.mp member
      have far := fun scope asked =>
        distant pattern inside scope asked entry tabled (of_decide_eq_true same)
      rw [Bool.or_eq_true, List.any_eq_true]
      rintro (star | ⟨method, listed, own⟩)
      · obtain ⟨scope, asked⟩ := List.exists_mem_of_ne_nil _ asks
        exact (far scope asked).1 (eq_of_beq star)
      · have asked : Scope.only method ∈ scopes spec.methods := by
          rw [methods]
          exact List.mem_map_of_mem listed
        exact (far _ asked).2.2 (eq_of_beq own).symm

/-- Everything a specification asks for is bound. -/
theorem Router.Holds.route (holds : router.Holds log) {spec : RouteSpec} (handler : α)
    (separated : Separated (log.map Attempt.pair ++ spec.bindings))
    (asks : scopes spec.methods ≠ []) :
    ∃ changed, router.route spec handler = (changed, none) ∧
      changed.Holds (log ++ spec.accepted handler) := by
  rw [Router.route, holds.conflict?_eq_none separated asks]
  exact holds.bindEach separated

end Accepting

/-- Bind specifications one after the other, up to the first that is not bound in full. -/
def Router.routeEach : Router α → List (RouteSpec × α) → Router α × Option RouteFault
  | router, [] => (router, none)
  | router, (spec, handler) :: rest =>
      match router.route spec handler with
      | (changed, none) => routeEach changed rest
      | (changed, some fault) => (changed, some fault)

theorem Router.routeEach_append (router : Router α) (first second : List (RouteSpec × α)) :
    router.routeEach (first ++ second) =
      match router.routeEach first with
      | (changed, none) => changed.routeEach second
      | (changed, some fault) => (changed, some fault) := by
  induction first generalizing router with
  | nil => rfl
  | cons call rest inductionHypothesis =>
      rw [List.cons_append, Router.routeEach, Router.routeEach]
      cases router.route call.1 call.2 with
      | mk changed fault =>
          cases fault with
          | none => exact inductionHypothesis changed
          | some fault => rfl

/-- The record of binding specifications all of which are accepted. -/
def acceptedAll (calls : List (RouteSpec × α)) : List (Attempt α) :=
  calls.flatMap fun (spec, handler) => spec.accepted handler

/-- Specifications, none of them empty, whose patterns keep clear of each other. -/
structure Distinct (calls : List (RouteSpec × α)) : Prop where
  separated : Separated (calls.flatMap fun call => call.1.bindings)
  asks : ∀ call ∈ calls, scopes call.1.methods ≠ []

theorem pair_acceptedAll (calls : List (RouteSpec × α)) :
    (acceptedAll calls).map Attempt.pair = calls.flatMap fun call => call.1.bindings := by
  rw [acceptedAll, List.map_flatMap]
  exact congrArg (List.flatMap · calls) (funext fun call => call.1.pair_accepted call.2)

theorem Router.Holds.routeEach {router : Router α} {log : List (Attempt α)}
    {calls : List (RouteSpec × α)} (holds : router.Holds log)
    (separated : Separated
      (log.map Attempt.pair ++ calls.flatMap fun call => call.1.bindings))
    (asks : ∀ call ∈ calls, scopes call.1.methods ≠ []) :
    ∃ changed, router.routeEach calls = (changed, none) ∧
      changed.Holds (log ++ acceptedAll calls) := by
  induction calls generalizing router log with
  | nil => exact ⟨router, rfl, by simpa [acceptedAll] using holds⟩
  | cons call rest inductionHypothesis =>
      obtain ⟨spec, handler⟩ := call
      rw [List.flatMap_cons, ← List.append_assoc] at separated
      obtain ⟨changed, bound, holdsNow⟩ := holds.route handler
        (separated.sublist (List.sublist_append_left _ _)) (asks _ List.mem_cons_self)
      have later : Separated ((log ++ spec.accepted handler).map Attempt.pair ++
          rest.flatMap fun call => call.1.bindings) := by
        rw [List.map_append, RouteSpec.pair_accepted]
        exact separated
      obtain ⟨complete, done, holdsThen⟩ := inductionHypothesis holdsNow later
        fun call member => asks call (.tail _ member)
      refine ⟨complete, ?_, ?_⟩
      · rw [Router.routeEach, bound]
        exact done
      · rw [acceptedAll, List.flatMap_cons, ← List.append_assoc]
        exact holdsThen

/-! ## One tree -/

theorem apart_of_mem {log : List (Attempt α)}
    (distinct : log.Pairwise fun first second => apart first.pair second.pair = true)
    {first second : Attempt α} (inFirst : first ∈ log) (inSecond : second ∈ log)
    (different : first ≠ second) : apart first.pair second.pair = true := by
  induction distinct with
  | nil => exact absurd inFirst List.not_mem_nil
  | cons ahead _ inductionHypothesis =>
      rcases List.mem_cons.mp inFirst with rfl | laterFirst
      · rcases List.mem_cons.mp inSecond with rfl | laterSecond
        · exact absurd rfl different
        · exact ahead second laterSecond
      · rcases List.mem_cons.mp inSecond with rfl | laterSecond
        · rw [apart_comm]
          exact ahead first laterFirst
        · exact inductionHypothesis laterFirst laterSecond

section Matching

variable {router : Router α} {log : List (Attempt α)}

/-- Different bindings that one request may ask for are separate. -/
theorem Tracks.separate_of_ne {trees : Scope → PathTree (Endpoint α)} (tracks : Tracks trees log)
    (distinct : log.Pairwise fun first second => apart first.pair second.pair = true)
    {first second : Binding α} (boundFirst : Bound log first) (boundSecond : Bound log second)
    (meets : first.scope.meets second.scope = true) (different : first ≠ second) :
    ∃ pattern other pieces others, first.Reads pattern pieces ∧ second.Reads other others ∧
      pattern.route.separate other.route = true := by
  obtain ⟨pattern, pieces, reads⟩ := tracks.reads boundFirst
  obtain ⟨other, others, readsOther⟩ := tracks.reads boundSecond
  refine ⟨pattern, other, pieces, others, reads, readsOther, ?_⟩
  obtain ⟨attempt, member, _, rfl⟩ := boundFirst
  obtain ⟨rival, memberRival, _, rfl⟩ := boundSecond
  have clear := apart_of_mem distinct member memberRival
    fun same => different (congrArg Attempt.toBinding same)
  obtain ⟨route, later, isRoute, isLater, separate⟩ := separate_of_apart clear meets
  obtain ⟨_, readRoute, rfl, _⟩ := Pattern.route?_eq_some isRoute
  obtain ⟨_, readLater, rfl, _⟩ := Pattern.route?_eq_some isLater
  cases reads.read.symm.trans readRoute
  cases readsOther.read.symm.trans readLater
  exact separate

/-- No two bindings that one request may ask for match the same path. -/
theorem Tracks.eq_of_fits {trees : Scope → PathTree (Endpoint α)} (tracks : Tracks trees log)
    (distinct : log.Pairwise fun first second => apart first.pair second.pair = true)
    {first second : Binding α} (boundFirst : Bound log first) (boundSecond : Bound log second)
    (meets : first.scope.meets second.scope = true) {pieces others : List Piece} {path : Bytes}
    {values taken : List Bytes} (spelled : Piece.Spelled first.source pieces)
    (spelledOther : Piece.Spelled second.source others)
    (fits : Place.Fits (pieces.map Piece.place) path values)
    (fitsOther : Place.Fits (others.map Piece.place) path taken) : first = second := by
  refine Classical.byContradiction fun different => ?_
  obtain ⟨_, _, _, _, reads, readsOther, separate⟩ :=
    tracks.separate_of_ne distinct boundFirst boundSecond meets different
  cases reads.spelled.unique spelled
  cases readsOther.spelled.unique spelledOther
  rw [← reads.places] at fits
  rw [← readsOther.places] at fitsOther
  exact Route.not_fits_of_separate (Pattern.proper reads.read) (Pattern.proper readsOther.read)
    separate fits fitsOther

/-- A tree answers a path by the only binding in it that matches. -/
theorem Tracks.matched_iff_shows {trees : Scope → PathTree (Endpoint α)}
    (tracks : Tracks trees log)
    (distinct : log.Pairwise fun first second => apart first.pair second.pair = true)
    (accepted : ∀ attempt ∈ log, attempt.accepted = true) (scope : Scope) (path : String)
    (handler : α) (params : List (String × String)) :
    Router.matched (trees scope) path = some (handler, params) ↔
      ∃ binding, Bound log binding ∧ binding.scope = scope ∧
        Shows binding.source path params ∧ binding.endpoint.admits params = true ∧
          binding.endpoint.handler = handler := by
  have undisturbed : Undisturbed log path := fun attempt member refused =>
    nomatch refused.symm.trans (accepted attempt member)
  rw [tracks.matched_iff undisturbed]
  constructor
  · rintro ⟨binding, pieces, values, chosen, shown, admits, same⟩
    exact ⟨binding, chosen.bound, chosen.located, ⟨pieces, values, chosen.spelled, chosen.fits,
      shown⟩, admits, same⟩
  · rintro ⟨binding, bound, rfl, ⟨pieces, values, spelled, fits, shown⟩, admits, same⟩
    refine ⟨binding, pieces, values, ⟨⟨bound, rfl, spelled, fits, ?_⟩, ?_⟩, shown, admits, same⟩
    · intro other others boundOther located spelledOther overtakes
      by_cases equal : other = binding
      · subst equal
        cases spelled.unique spelledOther
        exact Place.not_overtakes_self _ _ overtakes
      · obtain ⟨_, _, _, _, readsOther, reads, separate⟩ := tracks.separate_of_ne distinct
          boundOther bound (located ▸ Scope.meets_self _) equal
        cases reads.spelled.unique spelled
        cases readsOther.spelled.unique spelledOther
        rw [← reads.places] at fits overtakes
        rw [← readsOther.places] at overtakes
        exact Route.not_overtakes_of_separate (Pattern.proper readsOther.read)
          (Pattern.proper reads.read) separate fits overtakes
    · intro other others taken stays
      exact Or.inl (tracks.eq_of_fits distinct stays.bound bound
        (stays.located ▸ Scope.meets_self _) stays.spelled spelled stays.fits fits)

end Matching

end FunctionGateway.Routing
