import FunctionGateway.Proofs.Routing.Table

/-!
# Which specifications conflict

A specification conflicts with what is bound when one of its patterns is bound for a method that
it has too.  The check reads the rows of the table, in which `*` stands for any method, and so
takes the extension method spelled `*` for all of them.  Apart from that one method a conflict is
reported exactly where there is one.
-/

namespace FunctionGateway.Routing

open FunctionGateway.Http

variable {α : Type}

/-! ## Methods in common -/

/-- The methods that the tree of a scope is asked for. -/
def Scope.Answers : Scope → Method → Prop
  | .any, _ => True
  | .only own, method => own = method

/-- A pattern of the specification is bound for a method that the specification has. -/
structure RouteSpec.Overlaps (spec : RouteSpec) (binding : Binding α) : Prop where
  pattern : binding.source ∈ spec.patterns
  shared : ∃ method, binding.scope.Answers method ∧ spec.methods.allows method = true

/-- The extension method that is spelled as rows show any method. -/
def starMethod : Method := ⟨"*", by decide⟩

/-- A pattern of the specification is bound for the extension method `*`. -/
structure RouteSpec.Starred (spec : RouteSpec) (binding : Binding α) : Prop where
  pattern : binding.source ∈ spec.patterns
  star : binding.scope = .only starMethod

theorem Scope.label_eq_star_iff {scope : Scope} :
    scope.label = "*" ↔ scope = .any ∨ scope = .only starMethod := by
  cases scope with
  | any => simp [Scope.label]
  | only method =>
      obtain ⟨token, isToken⟩ := method
      simp [Scope.label, starMethod]

/-- A label gets in the way of a method set. -/
def hinders : MethodSet → String → Bool
  | .any, _ => true
  | .only methods, label => label == "*" || methods.any (·.token == label)

/-- A label stands for the methods of its tree; `*` stands for all methods, also where it is one
of them. -/
theorem hinders_label_iff {methods : MethodSet} (asks : ∃ method, methods.allows method = true)
    {scope : Scope} :
    hinders methods scope.label = true ↔
      (∃ method, scope.Answers method ∧ methods.allows method = true) ∨
        scope = .only starMethod := by
  by_cases starred : scope.label = "*"
  · refine iff_of_true ?_ ?_
    · rw [starred]
      cases methods <;> rfl
    · rcases Scope.label_eq_star_iff.mp starred with rfl | star
      · obtain ⟨method, asked⟩ := asks
        exact Or.inl ⟨method, trivial, asked⟩
      · exact Or.inr star
  · cases scope with
    | any => exact absurd rfl starred
    | only own =>
        have other : Scope.only own ≠ .only starMethod := by
          intro same
          rw [same] at starred
          exact starred rfl
        have alone : (∃ method, (Scope.only own).Answers method ∧
            methods.allows method = true) ↔ methods.allows own = true := by
          simp [Scope.Answers]
        rw [alone, or_iff_left other]
        cases methods with
        | any => simp [hinders, MethodSet.allows]
        | only list =>
            have token : ∀ method : Method, method.token = own.token ↔ method = own := by
              rintro ⟨left, isLeft⟩
              cases own
              simp
            have unstarred : own.token ≠ "*" := starred
            simp [hinders, MethodSet.allows, Scope.label, unstarred, token]

namespace Router

/-! ## What the check finds -/

/-- The check looks for the first label of the pattern that gets in the way. -/
theorem takenBy?_eq_find? (router : Router α) (methods : MethodSet) (pattern : String) :
    router.takenBy? methods pattern =
      ((router.table.filter (·.pattern = pattern)).map RouteEntry.method).find?
        (hinders methods) := by
  cases methods with
  | only list => rfl
  | any =>
      rw [takenBy?]
      cases (router.table.filter (·.pattern = pattern)).map RouteEntry.method <;> rfl

theorem mem_labels_iff {router : Router α} {pattern label : String} :
    label ∈ (router.table.filter (·.pattern = pattern)).map RouteEntry.method ↔
      ⟨pattern, label⟩ ∈ router.table := by
  rw [List.mem_map]
  constructor
  · rintro ⟨⟨own, shown⟩, member, rfl⟩
    obtain ⟨tabled, same⟩ := List.mem_filter.mp member
    obtain rfl : own = pattern := of_decide_eq_true same
    exact tabled
  · intro tabled
    exact ⟨_, List.mem_filter.mpr ⟨tabled, decide_eq_true rfl⟩, rfl⟩

/-- The check reports a pattern of the specification with a label that gets in the way. -/
theorem conflict?_eq_some {router : Router α} {spec : RouteSpec} {fault : RouteFault}
    (found : router.conflict? spec = some fault) :
    ∃ label, ∃ pattern ∈ spec.patterns, fault = .taken label pattern ∧
      ⟨pattern, label⟩ ∈ router.table ∧ hinders spec.methods label = true := by
  obtain ⟨pattern, inside, taken⟩ := List.exists_of_findSome?_eq_some found
  obtain ⟨label, first, rfl⟩ := Option.map_eq_some_iff.mp taken
  rw [takenBy?_eq_find?] at first
  exact ⟨label, pattern, inside, rfl, mem_labels_iff.mp (List.mem_of_find?_eq_some first),
    List.find?_some first⟩

/-- Where there is a label that gets in the way the check reports one. -/
theorem conflict?_ne_none {router : Router α} {spec : RouteSpec} {pattern label : String}
    (inside : pattern ∈ spec.patterns) (tabled : ⟨pattern, label⟩ ∈ router.table)
    (inTheWay : hinders spec.methods label = true) : router.conflict? spec ≠ none := by
  intro free
  have untaken := List.findSome?_eq_none_iff.mp free pattern inside
  rw [Option.map_eq_none_iff, takenBy?_eq_find?] at untaken
  exact List.find?_eq_none.mp untaken label (mem_labels_iff.mpr tabled) inTheWay

/-- Only the check reports a conflict, and nothing is done then. -/
theorem route_taken_iff {router : Router α} {spec : RouteSpec} {handler : α}
    {label pattern : String} :
    (router.route spec handler).2 = some (.taken label pattern) ↔
      router.conflict? spec = some (.taken label pattern) := by
  rw [route]
  cases router.conflict? spec with
  | some fault => exact Iff.rfl
  | none =>
      refine iff_of_false (fun taken => ?_) (Option.some_ne_none _).symm
      have never := taken_attemptsEach ⟨handler, spec.constraints⟩ spec.bindings router
      simp only [taken] at never

theorem route_of_taken {router : Router α} {spec : RouteSpec} {handler : α}
    {label pattern : String}
    (taken : (router.route spec handler).2 = some (.taken label pattern)) :
    (router.route spec handler).1 = router := by
  have told := router.taken_attempts spec handler
  simp only [taken] at told
  exact told.2

/-! ## Rows of any router -/

/-- The rows are those of the bindings on record, whatever the patterns. -/
theorem rows_routeAll (calls : List (RouteSpec × α)) (row : RouteEntry) :
    row ∈ (Router.empty.routeAll calls).table ↔
      ∃ binding ∈ taken (Router.empty.record calls), row = binding.row := by
  have start : ∀ row, row ∈ (Router.empty : Router α).table ↔
      ∃ binding ∈ taken ([] : List (Attempt α)), row = binding.row := by
    simp [Router.empty, taken]
  refine routeAll_induction (motive := fun router log => ∀ row, row ∈ router.table ↔
    ∃ binding ∈ taken log, row = binding.row) ?_ start row
  intro router log spec handler _ before
  refine route_induction (motive := fun router log => ∀ row, row ∈ router.table ↔
    ∃ binding ∈ taken log, row = binding.row) ?_ before
  intro other record pattern scope _ rows
  exact rows_bindPattern rows ⟨scope, pattern, _⟩

/-- A binding with this row has this pattern, and its tree this label. -/
theorem exists_bound_iff {calls : List (RouteSpec × α)} {pattern label : String} :
    ⟨pattern, label⟩ ∈ (Router.empty.routeAll calls).table ↔
      ∃ binding ∈ taken (Router.empty.record calls),
        binding.source = pattern ∧ binding.scope.label = label := by
  rw [rows_routeAll]
  constructor
  · rintro ⟨binding, bound, same⟩
    obtain ⟨rfl, rfl⟩ := RouteEntry.mk.inj same
    exact ⟨binding, bound, rfl, rfl⟩
  · rintro ⟨binding, bound, rfl, rfl⟩
    exact ⟨binding, bound, rfl⟩

/-- A conflict is reported if a pattern of the specification is bound for a method that it has
too, or for the extension method `*`, and not otherwise.  The report names such a pattern with a
label that it is bound under, and nothing is bound. -/
theorem route_conflicts_iff (calls : List (RouteSpec × α)) (spec : RouteSpec) (handler : α)
    (asks : ∃ method, spec.methods.allows method = true) :
    let router := Router.empty.routeAll calls
    let bound := taken (Router.empty.record calls)
    let outcome := router.route spec handler
    ((∃ label pattern, outcome.2 = some (.taken label pattern)) ↔
        ∃ binding ∈ bound, spec.Overlaps binding ∨ spec.Starred binding) ∧
      ∀ label pattern, outcome.2 = some (.taken label pattern) →
        outcome.1 = router ∧
          ∃ binding ∈ bound, binding.source = pattern ∧ binding.scope.label = label ∧
            (spec.Overlaps binding ∨ spec.Starred binding) := by
  intro router bound outcome
  -- A binding of one of the patterns gets in the way by its label.
  have inTheWay : ∀ binding : Binding α, binding.source ∈ spec.patterns →
      (hinders spec.methods binding.scope.label = true ↔
        spec.Overlaps binding ∨ spec.Starred binding) := by
    intro binding inside
    rw [hinders_label_iff asks]
    constructor
    · rintro (shared | star)
      · exact Or.inl ⟨inside, shared⟩
      · exact Or.inr ⟨inside, star⟩
    · rintro (overlaps | starred)
      · exact Or.inl overlaps.shared
      · exact Or.inr starred.star
  have reported : ∀ label pattern, outcome.2 = some (.taken label pattern) →
      ∃ binding ∈ bound, binding.source = pattern ∧ binding.scope.label = label ∧
        (spec.Overlaps binding ∨ spec.Starred binding) := by
    intro label pattern taken
    obtain ⟨_, _, inside, same, tabled, hindering⟩ :=
      conflict?_eq_some (route_taken_iff.mp taken)
    obtain ⟨rfl, rfl⟩ := RouteFault.taken.inj same
    obtain ⟨binding, member, rfl, rfl⟩ := exists_bound_iff.mp tabled
    exact ⟨binding, member, rfl, rfl, (inTheWay binding inside).mp hindering⟩
  refine ⟨⟨?_, ?_⟩, fun label pattern taken => ⟨route_of_taken taken, reported label pattern taken⟩⟩
  · rintro ⟨label, pattern, taken⟩
    obtain ⟨binding, member, _, _, overlaps⟩ := reported label pattern taken
    exact ⟨binding, member, overlaps⟩
  · rintro ⟨binding, member, overlaps⟩
    have inside : binding.source ∈ spec.patterns :=
      overlaps.elim RouteSpec.Overlaps.pattern RouteSpec.Starred.pattern
    have tabled := exists_bound_iff.mpr ⟨binding, member, rfl, rfl⟩
    have some := conflict?_ne_none inside tabled ((inTheWay binding inside).mpr overlaps)
    obtain ⟨fault, found⟩ := Option.ne_none_iff_exists'.mp some
    obtain ⟨label, pattern, _, rfl, _⟩ := conflict?_eq_some found
    exact ⟨label, pattern, route_taken_iff.mpr found⟩

/-- What a call bound before it was refused conflicts like anything else. -/
theorem route_conflicts_half :
    let calls : List (RouteSpec × String) := [(.exactly "/b" (.only [.get, .get]), "first")]
    let spec : RouteSpec := .exactly "/b" (.only [.post, .get])
    let router := Router.empty.routeAll calls
    (∃ method, spec.methods.allows method = true) ∧
      (router.route spec "second").2 = some (.taken "GET" "/b") ∧
      (router.route spec "second").1 = router ∧
      ∃ binding ∈ taken (Router.empty.record calls),
        binding.source = "/b" ∧ binding.scope.label = "GET" ∧
          (spec.Overlaps binding ∨ spec.Starred binding) := by
  intro calls spec router
  have asks : ∃ method, spec.methods.allows method = true := ⟨.get, by decide⟩
  have reported : (router.route spec "second").2 = some (.taken "GET" "/b") := by
    decide +kernel
  have named := (route_conflicts_iff calls spec "second" asks).2 "GET" "/b" reported
  exact ⟨asks, reported, named⟩

/-- The extension method `*` is taken for all methods: with a pattern bound for it alone, the
pattern cannot be bound for another method. -/
theorem route_starred :
    let calls : List (RouteSpec × String) := [(.exactly "/a" (.one starMethod), "star")]
    let spec : RouteSpec := .exactly "/a" (.one .get)
    let router := Router.empty.routeAll calls
    (∃ method, spec.methods.allows method = true) ∧
      (router.route spec "get").2 = some (.taken "*" "/a") ∧
      ¬ ∃ binding ∈ taken (Router.empty.record calls), spec.Overlaps binding := by
  intro calls spec router
  have bound : taken (Router.empty.record calls) =
      [⟨.only starMethod, "/a", ⟨"star", []⟩⟩] := by
    decide +kernel
  refine ⟨⟨.get, by decide⟩, by decide +kernel, ?_⟩
  rintro ⟨binding, member, overlaps⟩
  rw [bound, List.mem_singleton] at member
  subst member
  obtain ⟨method, rfl, asked⟩ := overlaps.shared
  exact absurd asked (by decide)

end Router

end FunctionGateway.Routing
