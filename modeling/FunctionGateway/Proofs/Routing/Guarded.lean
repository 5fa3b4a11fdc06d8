import FunctionGateway.Proofs.Routing.Agreement
import FunctionGateway.Proofs.Routing.Table

/-!
# What reaches a handler

A handler gets the values that a path gave the parameters of its pattern, and what it was bound
with: the rules of its own specification have been applied to them.  A rule is applied to
the first value of a name, while a handler reads the last one; so a rule that names a
parameter holds of what the handler reads as long as the pattern uses the name once.
-/

namespace FunctionGateway.Routing

open FunctionGateway.Http
open FunctionGateway.Text

variable {α : Type}

/-- The names of the wildcards of a pattern, in order. -/
def patternNames (source : String) : List String :=
  match Piece.read? source with
  | .ok pieces => (pieces.filterMap Piece.name?).map PathTree.textOf
  | .error _ => []

/-! ## Where an entry comes from -/

/-- An entry is there because a specification asked for a pattern in this tree. -/
def Entry.Asked (calls : List (RouteSpec × α)) (scope : Scope) (entry : Entry (Endpoint α)) :
    Prop :=
  ∃ call ∈ calls, ∃ source, (source, scope) ∈ call.1.bindings ∧
    entry.names.map PathTree.textOf = patternNames source ∧
    entry.value = ⟨call.2, call.1.constraints⟩

/-- All that the trees of a router hold was asked for. -/
structure Router.Traced (calls : List (RouteSpec × α)) (router : Router α) : Prop where
  laid : ∀ scope, (router.tree scope).root.Laid
  asked : ∀ scope, ∀ entry ∈ (router.tree scope).root.entries, entry.Asked calls scope

theorem Router.traced_empty (calls : List (RouteSpec × α)) : Router.empty.Traced calls where
  laid := by
    intro scope
    cases scope <;> exact Node.laid_empty
  asked := by
    intro scope entry member
    cases scope <;> exact absurd member List.not_mem_nil

theorem Pattern.names_entry {source : String} {pattern : Pattern}
    (read : Pattern.read? source = .ok pattern) (complete : pattern.route.whole = true)
    (value : Endpoint α) :
    (pattern.entry value).names.map PathTree.textOf = patternNames source := by
  obtain ⟨pieces, readPieces, rfl⟩ := Pattern.read?_eq_ok read
  obtain ⟨_, names⟩ := Route.ofPiecesFrom_of_whole 0 none complete
  rw [patternNames, readPieces]
  exact congrArg (List.map PathTree.textOf) names

/-- A tree may take the place of another one if all that it holds was asked for. -/
theorem Router.Traced.withTree {calls : List (RouteSpec × α)} {router : Router α}
    (traced : router.Traced calls) {scope : Scope} {tree : PathTree (Endpoint α)}
    (below : tree.root.Laid) (entries : ∀ entry ∈ tree.root.entries, entry.Asked calls scope) :
    (router.withTree scope tree).Traced calls := by
  constructor
  · intro other
    rw [Router.tree_withTree]
    split
    · exact below
    · exact traced.laid other
  · intro other
    rw [Router.tree_withTree]
    split
    · rename_i same
      exact same ▸ entries
    · exact traced.asked other

/-- An attempt adds the entry that was asked for, or none; what else is there was there. -/
theorem Router.Traced.bindPattern {calls : List (RouteSpec × α)} {router : Router α}
    (traced : router.Traced calls) {call : RouteSpec × α} (member : call ∈ calls)
    {source : String} {scope : Scope} (asked : (source, scope) ∈ call.1.bindings) :
    (router.bindPattern ⟨call.2, call.1.constraints⟩ source scope).1.Traced calls := by
  rw [Router.bindPattern]
  cases read : Pattern.read? source with
  | error fault => exact traced
  | ok pattern =>
      let endpoint : Endpoint α := ⟨call.2, call.1.constraints⟩
      obtain ⟨below, kept, ⟨_, old⟩, adds⟩ := PathTree.insert_adds (traced.laid scope)
        (Pattern.grouped read) endpoint
      have keptAsked : ∀ entry ∈ kept, entry.Asked calls scope := by
        intro entry present
        obtain ⟨before, inside, names, value⟩ := old entry present
        obtain ⟨own, among, text, paired, spelled, bound⟩ := traced.asked scope before inside
        exact ⟨own, among, text, paired, names ▸ spelled, value.trans bound⟩
      have entries : ∀ entry ∈ ((router.tree scope).insert pattern endpoint).part.root.entries,
          entry.Asked calls scope := by
        intro entry present
        cases outcome : ((router.tree scope).insert pattern endpoint).fault with
        | some cause =>
            rw [outcome] at adds
            exact keptAsked entry (adds.mem_iff.mp present)
        | none =>
            rw [outcome] at adds
            obtain ⟨complete, added⟩ := adds
            rcases List.mem_cons.mp (added.mem_iff.mp present) with rfl | before
            · exact ⟨call, member, source, asked, Pattern.names_entry read complete endpoint, rfl⟩
            · exact keptAsked entry before
      have trees := traced.withTree below entries
      simp only
      split
      · exact trees
      · exact ⟨fun other => trees.laid other, fun other => trees.asked other⟩

theorem Router.traced_routeAll (calls : List (RouteSpec × α)) :
    (Router.empty.routeAll calls).Traced calls := by
  let motive : Router α → List (Attempt α) → Prop := fun router _ => router.Traced calls
  have each : ∀ router log spec handler, (spec, handler) ∈ calls → motive router log →
      motive (router.route spec handler).1 (log ++ router.attempts spec handler) := by
    intro router log spec handler member traced
    refine @route_induction _ motive spec handler ?_ router log traced
    intro other record source scope asked before
    exact before.bindPattern member asked
  exact @routeAll_induction _ motive calls each Router.empty [] (Router.traced_empty calls)

/-! ## What a lookup answers -/

/-- A handler answers because of a specification that allows the method.  The values have the
names of one of its patterns, in order, and the first of each name satisfies its rules. -/
structure Warranted (calls : List (RouteSpec × α)) (method : Method) (handler : α)
    (params : List (String × String)) (spec : RouteSpec) (source : String) : Prop where
  called : (spec, handler) ∈ calls
  allowed : spec.methods.allows method = true
  pattern : source ∈ spec.patterns
  names : params.map Prod.fst <+: patternNames source
  admitted : Endpoint.admits ⟨handler, spec.constraints⟩ params = true

theorem mem_bindings {spec : RouteSpec} {source : String} {scope : Scope} {method : Method}
    (asked : (source, scope) ∈ spec.bindings) (reaches : scope = .any ∨ scope = .only method) :
    source ∈ spec.patterns ∧ spec.methods.allows method = true := by
  obtain ⟨pattern, inside, paired⟩ := List.mem_flatMap.mp asked
  obtain ⟨place, among, equal⟩ := List.mem_map.mp paired
  obtain ⟨rfl, rfl⟩ := Prod.mk.inj equal
  refine ⟨inside, ?_⟩
  cases methods : spec.methods with
  | any => rfl
  | only list =>
      rw [methods] at among
      obtain ⟨own, listed, rfl⟩ := List.mem_map.mp among
      rcases reaches with impossible | same
      · cases impossible
      · cases same
        exact List.contains_iff_mem.mpr listed

theorem names_zip (names values : List Bytes) :
    ((names.zip values).map fun (name, value) =>
      (PathTree.textOf name, PathTree.textOf value)).map Prod.fst <+:
        names.map PathTree.textOf := by
  induction names generalizing values with
  | nil => exact List.prefix_rfl
  | cons name rest inductionHypothesis =>
      cases values with
      | nil => exact List.nil_prefix
      | cons value others => exact (List.prefix_cons_inj _).mpr (inductionHypothesis others)

theorem Router.Traced.matched {calls : List (RouteSpec × α)} {router : Router α}
    (traced : router.Traced calls) {scope : Scope} {path : String} {handler : α}
    {params : List (String × String)}
    (found : Router.matched (router.tree scope) path = some (handler, params))
    {method : Method} (reaches : scope = .any ∨ scope = .only method) :
    ∃ spec source, Warranted calls method handler params spec source := by
  rw [Router.matched] at found
  split at found
  · rename_i answer searched
    split at found
    · rename_i admits
      obtain ⟨rfl, rfl⟩ := Prod.mk.inj (Option.some.inj found)
      rw [PathTree.find] at searched
      obtain ⟨capture, below, rfl⟩ := Option.map_eq_some_iff.mp searched
      obtain ⟨entry, member, names, value⟩ := Node.find_from below
      obtain ⟨call, called, source, asked, spelled, endpoint⟩ :=
        traced.asked scope entry member
      obtain ⟨inside, allowed⟩ := mem_bindings asked reaches
      have bound : capture.value = ⟨call.2, call.1.constraints⟩ := value.symm.trans endpoint
      rw [bound] at admits ⊢
      refine ⟨call.1, source, called, allowed, inside, ?_, admits⟩
      rw [← spelled, names]
      exact names_zip capture.names capture.values
    · cases found
  · cases found

theorem Router.Traced.lookup {calls : List (RouteSpec × α)} {router : Router α}
    (traced : router.Traced calls) {method : Method} {path : String} {handler : α}
    {params : List (String × String)} (found : router.lookup method path = .found handler params) :
    ∃ spec source, Warranted calls method handler params spec source := by
  rw [Router.lookup] at found
  split at found
  · rename_i own ownParams matched
    cases found
    have here : Router.matched (router.tree (.only method)) path = some (handler, params) :=
      matched
    exact traced.matched here (Or.inr rfl)
  · split at found
    · rename_i own ownParams matched
      cases found
      have here : Router.matched (router.tree .any) path = some (handler, params) := matched
      exact traced.matched here (Or.inl rfl)
    · split at found
      · cases found
      · cases found

/-! ## What a handler reads -/

theorem mem_of_lookup {params : List (String × String)} {name value : String}
    (found : params.lookup name = some value) : (name, value) ∈ params := by
  obtain ⟨front, rest, whole, _⟩ := List.lookup_eq_some_iff.mp found
  rw [whole]
  exact List.mem_append_right front List.mem_cons_self

/-- The value of a name that is used once is the first one. -/
theorem lookup_of_mem {params : List (String × String)} {name value : String}
    (once : (params.map Prod.fst).count name ≤ 1) (member : (name, value) ∈ params) :
    params.lookup name = some value := by
  induction params with
  | nil => exact absurd member List.not_mem_nil
  | cons first rest inductionHypothesis =>
      rcases List.mem_cons.mp member with rfl | behind
      · exact List.lookup_cons_self
      · have present : 0 < (rest.map Prod.fst).count name :=
          List.count_pos_iff.mpr (List.mem_map_of_mem behind)
        rw [List.map_cons, List.count_cons] at once
        have different : ¬ first.1 = name := by
          intro same
          rw [if_pos (beq_iff_eq.mpr same)] at once
          omega
        have further : (rest.map Prod.fst).count name ≤ 1 := Nat.le_of_add_right_le once
        rw [List.lookup_cons, beq_false_of_ne (Ne.symm different)]
        exact inductionHypothesis further behind

theorem toNat_of_isNameChar {letter : Char} (allowed : isNameChar letter = true) :
    letter.toNat < 128 := by
  have number : letter.toNat = letter.val.toNat := rfl
  simp only [isNameChar, Bool.or_eq_true, beq_iff_eq] at allowed
  rcases allowed with ((alphanumeric | rfl) | rfl) | rfl
  · rcases Bool.or_eq_true_iff.mp alphanumeric with alphabetic | digit
    · rcases Bool.or_eq_true_iff.mp alphabetic with upper | lower
      · have most : letter.val.toNat ≤ 90 := (of_decide_eq_true upper).2
        omega
      · have most : letter.val.toNat ≤ 122 := of_decide_eq_true (Bool.and_eq_true_iff.mp lower).2
        omega
    · have most : letter.val.toNat ≤ 57 := of_decide_eq_true (Bool.and_eq_true_iff.mp digit).2
      omega
  · decide
  · decide
  · decide

/-- A character of a name is in ASCII and neither a divider nor blank. -/
theorem isNameChar_plain {letter : Char} (allowed : isNameChar letter = true) :
    letter ≠ '/' ∧ letter ≠ '%' ∧ letter.isWhitespace = false ∧ letter.toNat < 128 := by
  have each : ∀ code < 128, isNameChar (Char.ofNat code) = true →
      Char.ofNat code ≠ '/' ∧ Char.ofNat code ≠ '%' ∧ (Char.ofNat code).isWhitespace = false := by
    decide
  have small := toNat_of_isNameChar allowed
  have here := each letter.toNat small
  rw [Char.ofNat_toNat] at here
  obtain ⟨divider, percent, blank⟩ := here allowed
  exact ⟨divider, percent, blank, small⟩

/-- Whatever was bound before, in whatever order and with whatever failures: a handler that a
request reaches was bound by a specification that allows its method, with a pattern that
has the names it reads.  Under each name that the specification wants to be a name, the
first value is one; and where the pattern uses the name once, so is the value that the
handler reads. -/
theorem Router.resolve_warranted (calls : List (RouteSpec × α)) {request : Request} {handler : α}
    {params : List (String × String)}
    (found : (Router.empty.routeAll calls).resolve request = .found handler params) :
    ∃ spec source, Warranted calls request.method handler params spec source ∧
      ∀ name, (name, .name) ∈ spec.constraints →
        (∀ value, params.lookup name = some value → isValidName value = true) ∧
        ((patternNames source).count name ≤ 1 →
          ∀ value, (request.withParams params).param? name = some value →
            value ≠ "" ∧ ∀ letter ∈ value.toList, isNameChar letter = true ∧
              letter ≠ '/' ∧ letter ≠ '%' ∧ letter.isWhitespace = false ∧ letter.toNat < 128) := by
  obtain ⟨spec, source, warranted⟩ := (Router.traced_routeAll calls).lookup found
  refine ⟨spec, source, warranted, ?_⟩
  intro name constrained
  have first : ∀ value, params.lookup name = some value → isValidName value = true := by
    intro value asked
    have rule := List.all_eq_true.mp warranted.admitted (name, .name) constrained
    simp only [asked] at rule
    exact rule
  refine ⟨first, ?_⟩
  intro once value read
  have distinct : (params.map Prod.fst).count name ≤ 1 :=
    Nat.le_trans (warranted.names.sublist.count_le name) once
  have present : (name, value) ∈ params := List.mem_reverse.mp (mem_of_lookup read)
  have asked := lookup_of_mem distinct present
  obtain ⟨filled, each⟩ := (isValidName_iff value).mp (first value asked)
  refine ⟨?_, fun letter member => ⟨each letter member, isNameChar_plain (each letter member)⟩⟩
  rintro rfl
  exact filled rfl

/-- The names of a pattern in which a constrained name is used twice. -/
def doubled : List (RouteSpec × String) :=
  [((RouteSpec.exactly "/{name}/{name}" (.one .get)).constrain "name" .name, "greet")]

def doubledRequest : Request where
  method := .get
  target := ⟨"/a/b%20c", none⟩
  fields := []
  body := []

/-- Of two values under one name only the first is held to the rule, and the handler reads the
second. -/
theorem Router.resolve_doubled :
    (Router.empty.routeAll doubled).resolve doubledRequest =
        .found "greet" [("name", "a"), ("name", "b c")] ∧
      (doubledRequest.withParams [("name", "a"), ("name", "b c")]).param? "name" = some "b c" ∧
      isValidName "b c" = false := by
  decide +kernel

/-- A name that a pattern uses once reaches the handler as a name. -/
theorem Router.resolve_warranted_once :
    let calls : List (RouteSpec × String) :=
      [((RouteSpec.exactly "/function/{name}" (.one .get)).withSuffixes.constrain "name"
        .name, "call")]
    let request : Request := ⟨.get, ⟨"/function/a%2Db/c%20d", none⟩, [], [], []⟩
    (Router.empty.routeAll calls).resolve request =
        .found "call" [("name", "a-b"), ("params", "c d")] ∧
      ∃ spec source,
        Warranted calls .get "call" [("name", "a-b"), ("params", "c d")] spec source := by
  intro calls request
  have found : (Router.empty.routeAll calls).resolve request =
      .found "call" [("name", "a-b"), ("params", "c d")] := by
    decide +kernel
  obtain ⟨spec, source, warranted, _⟩ := Router.resolve_warranted calls found
  exact ⟨found, spec, source, warranted⟩

end FunctionGateway.Routing
