import FunctionGateway.Proofs.Routing.Attempts
import FunctionGateway.Proofs.Routing.Contents
import Mathlib.Data.List.Dedup

/-!
# The route table and the trees

A router keeps what is bound twice, as rows of a table and as patterns in trees.  The two never
drift apart: after any calls, those that stopped half-way included, the table has one row for
each pattern in each tree, and each tree holds just the patterns that it took, each with
the handler and the rules of the call that added it.
-/

namespace FunctionGateway.Routing

open FunctionGateway.Http
open FunctionGateway.Text

variable {α : Type}

/-- The bindings on record as taken, oldest first. -/
def taken (log : List (Attempt α)) : List (Binding α) :=
  (log.filter Attempt.accepted).map Attempt.toBinding

theorem taken_append (first second : List (Attempt α)) :
    taken (first ++ second) = taken first ++ taken second := by
  simp only [taken, List.filter_append, List.map_append]

theorem taken_accepted (log : List (Attempt α)) (binding : Binding α) :
    taken (log ++ [⟨binding, true⟩]) = taken log ++ [binding] := by
  rw [taken_append]
  rfl

theorem taken_refused (log : List (Attempt α)) (binding : Binding α) :
    taken (log ++ [⟨binding, false⟩]) = taken log := by
  rw [taken_append]
  exact List.append_nil _

/-- The entry that a binding makes in a tree, by what its text reads as. -/
def Binding.entry? (binding : Binding α) : Option (Entry (Endpoint α)) :=
  match Piece.read? binding.source with
  | .ok pieces =>
      some ⟨pieces.map Piece.place, pieces.filterMap Piece.name?, binding.endpoint⟩
  | .error _ => none

/-! ## What a text reads as -/

namespace Route

theorem isWildcard_ofPiecesFrom (earlier : Nat) (reversed : Bytes) (pieces : List Piece) :
    (ofPiecesFrom earlier (some reversed) pieces).isWildcard = true := by
  induction pieces generalizing reversed with
  | nil => cases reversed <;> rfl
  | cons piece rest inductionHypothesis =>
      cases piece with
      | literal byte =>
          rw [ofPiecesFrom]
          split
          · rfl
          · exact inductionHypothesis (byte :: reversed)
      | param name =>
          rw [ofPiecesFrom]
          rfl
      | remainder name =>
          rw [ofPiecesFrom]
          rfl

theorem grouped_ofPiecesFrom (earlier : Nat) (opened : Option Bytes) (pieces : List Piece) :
    (ofPiecesFrom earlier opened pieces).Grouped := by
  induction pieces generalizing earlier opened with
  | nil =>
      cases opened with
      | none => trivial
      | some reversed => cases reversed <;> trivial
  | cons piece rest inductionHypothesis =>
      cases opened with
      | none =>
          cases piece with
          | literal byte => exact inductionHypothesis earlier none
          | param name => exact inductionHypothesis (earlier + 1) (some [])
          | remainder name => cases rest <;> trivial
      | some reversed =>
          cases piece with
          | literal byte =>
              rw [ofPiecesFrom]
              split
              · exact inductionHypothesis earlier none
              · exact inductionHypothesis earlier (some (byte :: reversed))
          | param name =>
              rw [ofPiecesFrom]
              exact ⟨List.cons_ne_nil _ _, isWildcard_ofPiecesFrom _ _ _,
                inductionHypothesis (earlier + 1) (some [])⟩
          | remainder name =>
              rw [ofPiecesFrom]
              refine ⟨List.cons_ne_nil _ _, ?_⟩
              split
              · exact ⟨rfl, trivial⟩
              · exact ⟨rfl, trivial⟩

/-- The route of a pattern that is whole has the places and the names of the pattern. -/
theorem ofPiecesFrom_of_whole (earlier : Nat) (opened : Option Bytes) {pieces : List Piece}
    (complete : (ofPiecesFrom earlier opened pieces).whole = true) :
    (ofPiecesFrom earlier opened pieces).places = started opened ++ pieces.map Piece.place ∧
      pieces.filterMap Piece.paramName? ++ (ofPiecesFrom earlier opened pieces).lastName =
        pieces.filterMap Piece.name? := by
  induction pieces generalizing earlier opened with
  | nil =>
      cases opened with
      | none => exact ⟨rfl, rfl⟩
      | some reversed => cases reversed <;> simp [ofPiecesFrom, places, started, lastName]
  | cons piece rest inductionHypothesis =>
      cases opened with
      | none =>
          cases piece with
          | literal byte =>
              obtain ⟨same, names⟩ := inductionHypothesis earlier none complete
              exact ⟨congrArg (Place.literal byte :: ·) same, names⟩
          | param name =>
              obtain ⟨same, names⟩ := inductionHypothesis (earlier + 1) (some []) complete
              exact ⟨same, congrArg (name :: ·) names⟩
          | remainder name =>
              cases rest with
              | nil => exact ⟨rfl, rfl⟩
              | cons next further => cases complete
      | some reversed =>
          cases piece with
          | literal byte =>
              simp only [ofPiecesFrom] at complete ⊢
              by_cases divider : byte = slash
              · rw [if_pos divider] at complete ⊢
                obtain ⟨same, names⟩ := inductionHypothesis earlier none complete
                refine ⟨?_, names⟩
                simp [places, same, started, Piece.place, divider]
              · rw [if_neg divider] at complete ⊢
                obtain ⟨same, names⟩ :=
                  inductionHypothesis earlier (some (byte :: reversed)) complete
                refine ⟨?_, names⟩
                simp [same, started, Piece.place]
          | param name =>
              simp only [ofPiecesFrom] at complete ⊢
              obtain ⟨same, names⟩ := inductionHypothesis (earlier + 1) (some []) complete
              refine ⟨?_, congrArg (name :: ·) names⟩
              simp [places, same, started, Piece.place]
          | remainder name =>
              simp only [ofPiecesFrom, whole] at complete ⊢
              by_cases last : rest = []
              · subst last
                exact ⟨by simp [places, started, Piece.place], rfl⟩
              · rw [if_neg last] at complete
                cases complete

end Route

theorem Pattern.grouped {source : String} {pattern : Pattern}
    (read : Pattern.read? source = .ok pattern) : pattern.route.Grouped := by
  obtain ⟨pieces, _, rfl⟩ := Pattern.read?_eq_ok read
  exact Route.grouped_ofPiecesFrom 0 none pieces

/-- What a tree takes is the entry of the binding's text. -/
theorem Pattern.entry_eq {binding : Binding α} {pattern : Pattern}
    (read : Pattern.read? binding.source = .ok pattern)
    (complete : pattern.route.whole = true) :
    binding.entry? = some (pattern.entry binding.endpoint) := by
  obtain ⟨pieces, readPieces, rfl⟩ := Pattern.read?_eq_ok read
  obtain ⟨places, names⟩ := Route.ofPiecesFrom_of_whole 0 none complete
  have placesHere : (Route.ofPieces pieces).places = pieces.map Piece.place := places
  have namesHere : pieces.filterMap Piece.paramName? ++ (Route.ofPieces pieces).lastName =
      pieces.filterMap Piece.name? := names
  simp only [Binding.entry?, readPieces, Pattern.entry, Leaf.entryAt, placesHere, namesHere]

/-! ## Rows in order -/

namespace RouteEntry

theorem before_iff {first second : RouteEntry} :
    first.before second = true ↔
      first.pattern < second.pattern ∨
        first.pattern = second.pattern ∧ first.method < second.method := by
  simp [before]

theorem before_irrefl (entry : RouteEntry) : ¬ entry.before entry = true := by
  rw [before_iff]
  rintro (less | ⟨_, less⟩)
  · exact String.lt_irrefl _ less
  · exact String.lt_irrefl _ less

theorem before_trans {first second third : RouteEntry} (earlier : first.before second = true)
    (later : second.before third = true) : first.before third = true := by
  rw [before_iff] at earlier later ⊢
  rcases earlier with less | ⟨same, less⟩
  · rcases later with further | ⟨alike, _⟩
    · exact Or.inl (String.lt_trans less further)
    · exact Or.inl (alike ▸ less)
  · rcases later with further | ⟨alike, further⟩
    · exact Or.inl (same ▸ further)
    · exact Or.inr ⟨same.trans alike, String.lt_trans less further⟩

theorem before_of_not_before {first second : RouteEntry} (different : first ≠ second)
    (notBefore : ¬ first.before second = true) : second.before first = true := by
  rw [before_iff] at notBefore ⊢
  obtain ⟨notLess, notBeside⟩ := not_or.mp notBefore
  have atMost : second.pattern ≤ first.pattern := String.not_lt.mp notLess
  by_cases same : first.pattern = second.pattern
  · have atMostMethod : second.method ≤ first.method :=
      String.not_lt.mp fun less => notBeside ⟨same, less⟩
    refine Or.inr ⟨same.symm, String.not_le.mp fun other => different ?_⟩
    have alike := String.le_antisymm other atMostMethod
    cases first
    cases second
    exact congr (congrArg RouteEntry.mk same) alike
  · refine Or.inl (String.not_le.mp fun other => same ?_)
    exact String.le_antisymm other atMost

/-- A row goes where the table stays in order. -/
theorem sorted_insertInto (entry : RouteEntry) {rows : List RouteEntry}
    (sorted : rows.Pairwise fun first second => first.before second = true) :
    (entry.insertInto rows).Pairwise fun first second => first.before second = true := by
  induction rows with
  | nil => exact List.pairwise_singleton _ _
  | cons first rest inductionHypothesis =>
      obtain ⟨least, sortedRest⟩ := List.pairwise_cons.mp sorted
      rw [insertInto]
      by_cases same : entry = first
      · rw [if_pos same]
        exact sorted
      · rw [if_neg same]
        by_cases early : entry.before first = true
        · rw [if_pos early]
          refine List.pairwise_cons.mpr ⟨?_, sorted⟩
          intro other member
          rcases List.mem_cons.mp member with rfl | behind
          · exact early
          · exact before_trans early (least other behind)
        · rw [if_neg early]
          refine List.pairwise_cons.mpr ⟨?_, inductionHypothesis sortedRest⟩
          intro other member
          rcases (mem_insertInto entry other rest).mp member with rfl | behind
          · exact before_of_not_before same early
          · exact least other behind

end RouteEntry

/-- The row that shows a binding in the table. -/
def Binding.row (binding : Binding α) : RouteEntry :=
  ⟨binding.source, binding.scope.label⟩

/-! ## One call after the other -/

namespace Router

/-- What every attempt preserves holds of the router and the record that bindings leave. -/
theorem bindEach_induction {motive : Router α → List (Attempt α) → Prop}
    {endpoint : Endpoint α} {bindings : List (String × Scope)}
    (step : ∀ router log pattern scope, (pattern, scope) ∈ bindings → motive router log →
      let bound := router.bindPattern endpoint pattern scope
      motive bound.1 (log ++ [⟨⟨scope, pattern, endpoint⟩, bound.2.isNone⟩]))
    {router : Router α} {log : List (Attempt α)} (start : motive router log) :
    motive (router.bindEach endpoint bindings).1
      (log ++ router.attemptsEach endpoint bindings) := by
  induction bindings generalizing router log with
  | nil => simpa [bindEach, attemptsEach] using start
  | cons pair rest inductionHypothesis =>
      obtain ⟨pattern, scope⟩ := pair
      have here := step router log pattern scope List.mem_cons_self start
      simp only [bindEach, attemptsEach]
      cases outcome : router.bindPattern endpoint pattern scope with
      | mk changed fault =>
          rw [outcome] at here
          cases fault with
          | some cause => exact here
          | none =>
              rw [List.append_cons]
              refine inductionHypothesis ?_ here
              intro other record own place member
              exact step other record own place (List.mem_cons_of_mem _ member)

/-- What every attempt of a call preserves holds of the router and the record that the call
leaves. -/
theorem route_induction {motive : Router α → List (Attempt α) → Prop} {spec : RouteSpec}
    {handler : α}
    (step : ∀ router log pattern scope, (pattern, scope) ∈ spec.bindings → motive router log →
      let bound := router.bindPattern ⟨handler, spec.constraints⟩ pattern scope
      motive bound.1
        (log ++ [⟨⟨scope, pattern, ⟨handler, spec.constraints⟩⟩, bound.2.isNone⟩]))
    {router : Router α} {log : List (Attempt α)} (start : motive router log) :
    motive (router.route spec handler).1 (log ++ router.attempts spec handler) := by
  rw [route, attempts]
  cases router.conflict? spec with
  | some fault => simpa using start
  | none => exact bindEach_induction step start

/-- What every call preserves holds of the router and the record that calls leave. -/
theorem routeAll_induction {motive : Router α → List (Attempt α) → Prop}
    {calls : List (RouteSpec × α)}
    (step : ∀ router log spec handler, (spec, handler) ∈ calls → motive router log →
      motive (router.route spec handler).1 (log ++ router.attempts spec handler))
    {router : Router α} {log : List (Attempt α)} (start : motive router log) :
    motive (router.routeAll calls) (log ++ router.record calls) := by
  induction calls generalizing router log with
  | nil => simpa [routeAll, record] using start
  | cons call rest inductionHypothesis =>
      obtain ⟨spec, handler⟩ := call
      have here := step router log spec handler List.mem_cons_self start
      rw [record, ← List.append_assoc]
      refine inductionHypothesis ?_ here
      intro other log own bound member
      exact step other log own bound (List.mem_cons_of_mem _ member)

/-! ## What a router holds -/

theorem table_withTree (router : Router α) (scope : Scope) (tree : PathTree (Endpoint α)) :
    (router.withTree scope tree).table = router.table := by
  cases scope <;> rfl

/-- The table has a row for each binding, and the trees hold the entries of the bindings. -/
structure Recorded (router : Router α) (bound : List (Binding α)) : Prop where
  sorted : router.table.Pairwise fun first second => first.before second = true
  rows : ∀ row, row ∈ router.table ↔ ∃ binding ∈ bound, row = binding.row
  laid : ∀ scope, (router.tree scope).root.Laid
  unended : ∀ scope, (router.tree scope).root.leaf = none
  entries : ∀ scope, ((router.tree scope).root.entries.map some).Perm
    ((bound.filter (·.scope = scope)).map Binding.entry?)

theorem Recorded.empty : (Router.empty : Router α).Recorded [] where
  sorted := List.Pairwise.nil
  rows := by simp [Router.empty]
  laid := by
    intro scope
    cases scope <;> exact Node.laid_empty
  unended := by
    intro scope
    cases scope <;> rfl
  entries := by
    intro scope
    cases scope <;> exact List.Perm.nil

/-- The tree of a binding has one entry more if it took the binding, and those it had if not. -/
theorem Recorded.entries_insert {router : Router α} {bound : List (Binding α)}
    (recorded : router.Recorded bound) (binding : Binding α) {pattern : Pattern}
    (read : Pattern.read? binding.source = .ok pattern) :
    let grown := (router.tree binding.scope).insert pattern binding.endpoint
    let now := if grown.fault.isNone then bound ++ [binding] else bound
    (grown.part.root.entries.map some).Perm
      ((now.filter (·.scope = binding.scope)).map Binding.entry?) := by
  intro grown now
  obtain ⟨_, kept, keeps, adds⟩ := PathTree.insert_adds (recorded.laid binding.scope)
    (Pattern.grouped read) binding.endpoint
  have whole := keeps.1 (recorded.unended binding.scope)
  subst whole
  have before := recorded.entries binding.scope
  cases outcome : grown.fault with
  | none =>
      rw [outcome] at adds
      obtain ⟨complete, added⟩ := adds
      have entry := Pattern.entry_eq read complete
      have after := (added.map some).trans (before.cons (some (pattern.entry binding.endpoint)))
      simp only [now, outcome, Option.isNone_none, if_true, List.filter_append,
        List.map_append, List.filter_cons, decide_true, List.filter_nil, List.map_cons,
        List.map_nil, entry]
      exact after.trans (List.perm_append_singleton _ _).symm
  | some cause =>
      rw [outcome] at adds
      simp only [now, outcome, Option.isNone_some, Bool.false_eq_true, if_false]
      exact (adds.map some).trans before

/-- A tree of a router after one insertion holds one entry more, or what it held. -/
theorem Recorded.tree {router : Router α} {bound : List (Binding α)}
    (recorded : router.Recorded bound) (binding : Binding α)
    (rooted : Rooted binding.source) {pattern : Pattern}
    (read : Pattern.read? binding.source = .ok pattern) :
    let grown := (router.tree binding.scope).insert pattern binding.endpoint
    let changed := router.withTree binding.scope grown.part
    let now := if grown.fault.isNone then bound ++ [binding] else bound
    (∀ scope, (changed.tree scope).root.Laid) ∧
      (∀ scope, (changed.tree scope).root.leaf = none) ∧
      ∀ scope, ((changed.tree scope).root.entries.map some).Perm
        ((now.filter (·.scope = scope)).map Binding.entry?) := by
  intro grown changed now
  obtain ⟨next, begins⟩ := rooted.route read
  obtain ⟨below, _⟩ := PathTree.insert_adds (recorded.laid binding.scope)
    (Pattern.grouped read) binding.endpoint
  have unended := PathTree.leaf_insert (recorded.unended binding.scope) begins binding.endpoint
  have here := Router.tree_withTree router binding.scope
  refine ⟨?_, ?_, ?_⟩
  · intro scope
    rw [here]
    split
    · exact below
    · exact recorded.laid scope
  · intro scope
    rw [here]
    split
    · exact unended
    · exact recorded.unended scope
  · intro scope
    rw [here]
    by_cases same : scope = binding.scope
    · subst same
      rw [if_pos rfl]
      exact recorded.entries_insert binding read
    · have other : ¬ binding.scope = scope := fun equal => same equal.symm
      have unmoved : now.filter (·.scope = scope) = bound.filter (·.scope = scope) := by
        simp only [now]
        split
        · simp [List.filter_append, other]
        · rfl
      rw [if_neg same, unmoved]
      exact recorded.entries scope

/-- One attempt adds the row of its binding if the tree takes it, and no row if not. -/
theorem rows_bindPattern {router : Router α} {log : List (Attempt α)}
    (rows : ∀ row, row ∈ router.table ↔ ∃ binding ∈ taken log, row = binding.row)
    (binding : Binding α) :
    let bound := router.bindPattern binding.endpoint binding.source binding.scope
    ∀ row, row ∈ bound.1.table ↔
      ∃ other ∈ taken (log ++ [⟨binding, bound.2.isNone⟩]), row = other.row := by
  rw [Router.bindPattern]
  cases Pattern.read? binding.source with
  | error fault =>
      simp only [Option.isNone_some, taken_refused]
      exact rows
  | ok pattern =>
      simp only
      cases ((router.tree binding.scope).insert pattern binding.endpoint).fault with
      | some cause =>
          simp only [Option.isNone_some, taken_refused, table_withTree]
          exact rows
      | none =>
          simp only [Option.isNone_none, taken_accepted, table_withTree]
          intro row
          rw [RouteEntry.mem_insertInto, rows]
          simp [Binding.row, or_and_right, exists_or, or_comm]

/-- One attempt keeps table and trees together. -/
theorem Recorded.bindPattern {router : Router α} {log : List (Attempt α)}
    (recorded : router.Recorded (taken log)) (binding : Binding α)
    (rooted : Rooted binding.source) :
    let bound := router.bindPattern binding.endpoint binding.source binding.scope
    bound.1.Recorded (taken (log ++ [⟨binding, bound.2.isNone⟩])) := by
  have rows := rows_bindPattern recorded.rows binding
  rw [Router.bindPattern] at rows ⊢
  cases read : Pattern.read? binding.source with
  | error fault =>
      simp only [Option.isNone_some, taken_refused]
      exact recorded
  | ok pattern =>
      obtain ⟨laid, unended, entries⟩ := recorded.tree binding rooted read
      simp only [read] at rows
      simp only at laid unended entries ⊢
      cases outcome : ((router.tree binding.scope).insert pattern binding.endpoint).fault with
      | some cause =>
          rw [outcome] at entries
          simp only [outcome] at rows
          simp only [Option.isNone_some, taken_refused] at rows ⊢
          refine ⟨?_, rows, laid, unended, by simpa using entries⟩
          rw [table_withTree]
          exact recorded.sorted
      | none =>
          rw [outcome] at entries
          simp only [outcome] at rows
          simp only [Option.isNone_none, if_true] at entries
          simp only [Option.isNone_none, taken_accepted] at rows ⊢
          refine ⟨?_, rows, laid, unended, entries⟩
          rw [table_withTree]
          exact RouteEntry.sorted_insertInto _ recorded.sorted

theorem Recorded.route {router : Router α} {log : List (Attempt α)}
    (recorded : router.Recorded (taken log)) {spec : RouteSpec} (rooted : Rooted spec.template)
    (handler : α) :
    (router.route spec handler).1.Recorded (taken (log ++ router.attempts spec handler)) := by
  refine route_induction (motive := fun router log => router.Recorded (taken log)) ?_ recorded
  intro other record pattern scope member before
  have begins := RouteSpec.rooted_bindings rooted (pattern, scope) member
  exact before.bindPattern ⟨scope, pattern, _⟩ begins

/-! ## No binding in the place of another -/

/-- Bindings with one row are bindings of one tree, to one endpoint. -/
def Apart (bound : List (Binding α)) : Prop :=
  ∀ first ∈ bound, ∀ second ∈ bound, first.row = second.row →
    first.scope = second.scope ∧ first.endpoint = second.endpoint

/-- A specification without a conflict has no row in the table yet. -/
theorem free_of_conflict {router : Router α} {spec : RouteSpec}
    (free : router.conflict? spec = none) {pattern : String} {scope : Scope}
    (member : (pattern, scope) ∈ spec.bindings) : ⟨pattern, scope.label⟩ ∉ router.table := by
  intro present
  obtain ⟨own, inside, paired⟩ := List.mem_flatMap.mp member
  obtain ⟨place, among, equal⟩ := List.mem_map.mp paired
  obtain ⟨rfl, rfl⟩ := Prod.mk.inj equal
  have untaken : router.takenBy? spec.methods own = none := by
    have each := List.findSome?_eq_none_iff.mp free own inside
    exact Option.map_eq_none_iff.mp each
  have label : place.label ∈ (router.table.filter (·.pattern = own)).map RouteEntry.method := by
    refine List.mem_map.mpr ⟨⟨own, place.label⟩, List.mem_filter.mpr ⟨present, ?_⟩, rfl⟩
    exact decide_eq_true rfl
  cases methods : spec.methods with
  | any =>
      rw [methods] at untaken
      simp only [takenBy?] at untaken
      rw [List.head?_eq_none_iff.mp untaken] at label
      exact absurd label List.not_mem_nil
  | only list =>
      rw [methods] at untaken among
      simp only [takenBy?] at untaken
      obtain ⟨method, listed, rfl⟩ := List.mem_map.mp among
      have clear := List.find?_eq_none.mp untaken method.token label
      simp only [Bool.or_eq_true, beq_iff_eq, List.any_eq_true, not_or, not_exists,
        not_and] at clear
      exact clear.2 method listed rfl

/-- The trees of one specification have different labels. -/
theorem scope_eq_of_label {methods : MethodSet} {first second : Scope}
    (firstMember : first ∈ scopes methods) (secondMember : second ∈ scopes methods)
    (same : first.label = second.label) : first = second := by
  cases methods with
  | any =>
      rw [List.mem_singleton.mp firstMember, List.mem_singleton.mp secondMember]
  | only list =>
      obtain ⟨left, _, rfl⟩ := List.mem_map.mp firstMember
      obtain ⟨right, _, rfl⟩ := List.mem_map.mp secondMember
      have tokens : left.token = right.token := same
      cases left
      cases right
      cases tokens
      rfl

/-! ## What one call adds -/

/-- The bindings that a specification asks for. -/
def bindingsFor (endpoint : Endpoint α) (pairs : List (String × Scope)) : List (Binding α) :=
  pairs.map fun (pattern, scope) => ⟨scope, pattern, endpoint⟩

/-- A fault in a pattern comes after the pairs in front of it are bound. -/
def StopsAt (endpoint : Endpoint α) (pairs : List (String × Scope)) (pattern : String)
    (made : List (Binding α)) : Prop :=
  ∃ front scope rest, pairs = front ++ (pattern, scope) :: rest ∧ made = bindingsFor endpoint front

theorem fault_bindPattern {router changed : Router α} {endpoint : Endpoint α} {pattern : String}
    {scope : Scope} {fault : RouteFault}
    (failed : router.bindPattern endpoint pattern scope = (changed, some fault)) :
    ∃ cause, fault = .invalid pattern cause := by
  rw [bindPattern] at failed
  split at failed
  · exact ⟨_, (Option.some.inj (Prod.mk.inj failed).2).symm⟩
  · simp only at failed
    split at failed
    · exact ⟨_, (Option.some.inj (Prod.mk.inj failed).2).symm⟩
    · cases (Prod.mk.inj failed).2

theorem taken_attemptsEach (endpoint : Endpoint α) (pairs : List (String × Scope))
    (router : Router α) :
    let made := taken (router.attemptsEach endpoint pairs)
    match (router.bindEach endpoint pairs).2 with
    | none => made = bindingsFor endpoint pairs
    | some (.taken _ _) => False
    | some (.invalid pattern _) => StopsAt endpoint pairs pattern made := by
  induction pairs generalizing router with
  | nil => rfl
  | cons pair rest inductionHypothesis =>
      obtain ⟨pattern, scope⟩ := pair
      simp only [attemptsEach, bindEach]
      cases outcome : router.bindPattern endpoint pattern scope with
      | mk changed fault =>
          cases fault with
          | some cause =>
              obtain ⟨why, rfl⟩ := fault_bindPattern outcome
              exact ⟨[], scope, rest, rfl, rfl⟩
          | none =>
              have later := inductionHypothesis changed
              simp only at later ⊢
              cases result : (changed.bindEach endpoint rest).2 with
              | none =>
                  rw [result] at later
                  exact congrArg (⟨scope, pattern, endpoint⟩ :: ·) later
              | some fault =>
                  rw [result] at later
                  cases fault with
                  | taken method own => exact later
                  | invalid own cause =>
                      obtain ⟨front, place, behind, rfl, made⟩ := later
                      refine ⟨(pattern, scope) :: front, place, behind, rfl, ?_⟩
                      exact congrArg (⟨scope, pattern, endpoint⟩ :: ·) made

/-- A call that succeeds adds all that its specification asks for, one with a conflict adds
nothing and leaves the router alone, and one with a fault adds what comes before the fault. -/
theorem taken_attempts (router : Router α) (spec : RouteSpec) (handler : α) :
    let made := taken (router.attempts spec handler)
    match (router.route spec handler).2 with
    | none => made = bindingsFor ⟨handler, spec.constraints⟩ spec.bindings
    | some (.taken _ _) => made = [] ∧ (router.route spec handler).1 = router
    | some (.invalid pattern _) =>
        StopsAt ⟨handler, spec.constraints⟩ spec.bindings pattern made := by
  rw [route, attempts]
  cases conflict : router.conflict? spec with
  | some fault =>
      obtain ⟨pattern, _, taken⟩ := List.exists_of_findSome?_eq_some conflict
      obtain ⟨label, _, rfl⟩ := Option.map_eq_some_iff.mp taken
      exact ⟨rfl, rfl⟩
  | none =>
      have each := taken_attemptsEach ⟨handler, spec.constraints⟩ spec.bindings router
      simp only at each ⊢
      cases result : (router.bindEach ⟨handler, spec.constraints⟩ spec.bindings).2 with
      | none =>
          rw [result] at each
          exact each
      | some fault =>
          rw [result] at each
          cases fault with
          | taken method own => exact absurd each id
          | invalid own cause => exact each

theorem mem_bindingsFor {endpoint : Endpoint α} {pairs : List (String × Scope)}
    {binding : Binding α} :
    binding ∈ bindingsFor endpoint pairs ↔
      (binding.source, binding.scope) ∈ pairs ∧ binding.endpoint = endpoint := by
  rw [bindingsFor, List.mem_map]
  constructor
  · rintro ⟨⟨pattern, scope⟩, member, rfl⟩
    exact ⟨member, rfl⟩
  · rintro ⟨member, rfl⟩
    exact ⟨_, member, rfl⟩

/-- What a call adds, its specification asked for, and it was free before. -/
theorem mem_taken_attempts {router : Router α} {spec : RouteSpec} {handler : α}
    {binding : Binding α} (member : binding ∈ taken (router.attempts spec handler)) :
    binding.endpoint = ⟨handler, spec.constraints⟩ ∧ binding.scope ∈ scopes spec.methods ∧
      binding.row ∉ router.table := by
  have asked : binding ∈ bindingsFor ⟨handler, spec.constraints⟩ spec.bindings := by
    have made := router.taken_attempts spec handler
    simp only at made
    cases result : (router.route spec handler).2 with
    | none =>
        rw [result] at made
        exact made ▸ member
    | some fault =>
        rw [result] at made
        cases fault with
        | taken method own =>
            rw [made.1] at member
            exact absurd member List.not_mem_nil
        | invalid own cause =>
            obtain ⟨front, scope, rest, whole, added⟩ := made
            rw [added, mem_bindingsFor] at member
            rw [mem_bindingsFor, whole]
            exact ⟨List.mem_append_left _ member.1, member.2⟩
  obtain ⟨paired, endpoint⟩ := mem_bindingsFor.mp asked
  have free : router.conflict? spec = none := by
    rw [attempts] at member
    cases conflict : router.conflict? spec with
    | none => rfl
    | some fault =>
        rw [conflict] at member
        exact absurd member List.not_mem_nil
  refine ⟨endpoint, ?_, free_of_conflict free paired⟩
  obtain ⟨_, _, inside⟩ := List.mem_flatMap.mp paired
  obtain ⟨scope, among, same⟩ := List.mem_map.mp inside
  exact (Prod.mk.inj same).2 ▸ among

theorem Apart.route {router : Router α} {log : List (Attempt α)} (apart : Apart (taken log))
    (recorded : router.Recorded (taken log)) (spec : RouteSpec) (handler : α) :
    Apart (taken (log ++ router.attempts spec handler)) := by
  rw [taken_append]
  -- A binding of this call shares its row with no earlier one.
  have mixed : ∀ old ∈ taken log, ∀ new ∈ taken (router.attempts spec handler),
      old.row ≠ new.row := by
    intro old before new added same
    obtain ⟨_, _, fresh⟩ := mem_taken_attempts added
    exact fresh ((recorded.rows new.row).mpr ⟨old, before, same.symm⟩)
  intro first memberFirst second memberSecond same
  rcases List.mem_append.mp memberFirst with oldFirst | newFirst
  · rcases List.mem_append.mp memberSecond with oldSecond | newSecond
    · exact apart first oldFirst second oldSecond same
    · exact absurd same (mixed first oldFirst second newSecond)
  · rcases List.mem_append.mp memberSecond with oldSecond | newSecond
    · exact absurd same.symm (mixed second oldSecond first newFirst)
    · obtain ⟨endpointFirst, amongFirst, _⟩ := mem_taken_attempts newFirst
      obtain ⟨endpointSecond, amongSecond, _⟩ := mem_taken_attempts newSecond
      have labels := congrArg RouteEntry.method same
      exact ⟨scope_eq_of_label amongFirst amongSecond labels,
        endpointFirst.trans endpointSecond.symm⟩

theorem Recorded.routeAll {calls : List (RouteSpec × α)}
    (rooted : ∀ call ∈ calls, Rooted call.1.template) {router : Router α}
    {log : List (Attempt α)} (recorded : router.Recorded (taken log)) (apart : Apart (taken log)) :
    (router.routeAll calls).Recorded (taken (log ++ router.record calls)) ∧
      Apart (taken (log ++ router.record calls)) := by
  refine routeAll_induction
    (motive := fun router log => router.Recorded (taken log) ∧ Apart (taken log)) ?_
    ⟨recorded, apart⟩
  rintro router log spec handler member ⟨recorded, apart⟩
  have begins := rooted (spec, handler) member
  exact ⟨recorded.route begins handler, apart.route recorded spec handler⟩

/-- A list of the rows without repetition is as long as the table. -/
theorem Recorded.size {router : Router α} {bound : List (Binding α)}
    (recorded : router.Recorded bound) {rows : List RouteEntry} (distinct : rows.Nodup)
    (members : ∀ row, row ∈ rows ↔ ∃ binding ∈ bound, row = binding.row) :
    router.size = rows.length := by
  have distinctRows : router.table.Nodup := by
    refine recorded.sorted.imp ?_
    rintro first second before rfl
    exact RouteEntry.before_irrefl first before
  have alike : ∀ row, row ∈ router.table ↔ row ∈ rows :=
    fun row => (recorded.rows row).trans (members row).symm
  exact ((List.perm_ext_iff_of_nodup distinctRows distinct).mpr alike).length_eq

/-- Rows and bindings are counted alike, those of one pattern in one tree as one. -/
theorem Recorded.size_dedup {router : Router α} {bound : List (Binding α)}
    (recorded : router.Recorded bound) (apart : Apart bound) :
    router.size = ((bound.map fun binding => (binding.scope, binding.source)).dedup).length := by
  let pairs := (bound.map fun binding => (binding.scope, binding.source)).dedup
  let row : Scope × String → RouteEntry := fun (scope, source) => ⟨source, scope.label⟩
  have distinct : (pairs.map row).Nodup := by
    refine List.Nodup.map_on ?_ (List.nodup_dedup _)
    intro first memberFirst second memberSecond same
    obtain ⟨left, memberLeft, rfl⟩ := List.mem_map.mp (List.mem_dedup.mp memberFirst)
    obtain ⟨right, memberRight, rfl⟩ := List.mem_map.mp (List.mem_dedup.mp memberSecond)
    have scopes := (apart left memberLeft right memberRight same).1
    have sources := congrArg RouteEntry.pattern same
    exact Prod.ext scopes sources
  have members : ∀ entry, entry ∈ pairs.map row ↔ ∃ binding ∈ bound, entry = binding.row := by
    intro entry
    rw [List.mem_map]
    constructor
    · rintro ⟨pair, member, rfl⟩
      obtain ⟨binding, inside, rfl⟩ := List.mem_map.mp (List.mem_dedup.mp member)
      exact ⟨binding, inside, rfl⟩
    · rintro ⟨binding, member, rfl⟩
      exact ⟨_, List.mem_dedup.mpr (List.mem_map_of_mem member), rfl⟩
  exact (recorded.size distinct members).trans (List.length_map _)

/-- Where no tree took a text twice, no two bindings share a row. -/
theorem nodup_rows {log : List (Attempt α)} (apart : Apart (taken log))
    (fresh : (log.filter Attempt.accepted).Pairwise fun earlier later =>
      ¬ (earlier.scope = later.scope ∧ earlier.source = later.source)) :
    ((taken log).map Binding.row).Nodup := by
  rw [taken, List.map_map, List.Nodup, List.pairwise_map]
  refine fresh.imp_of_mem fun {first second} memberFirst memberSecond different same => ?_
  have scopes := (apart _ (List.mem_map_of_mem memberFirst) _ (List.mem_map_of_mem memberSecond)
    same).1
  exact different ⟨scopes, congrArg RouteEntry.pattern same⟩

/-- Table and trees tell the same bindings: the rows are in order, one for each pattern in each
tree, and the trees hold the patterns with their endpoints. -/
structure InStep (router : Router α) (bound : List (Binding α)) : Prop where
  sorted : router.table.Pairwise fun first second => first.before second = true
  rows : ∀ row, row ∈ router.table ↔ ∃ binding ∈ bound, row = binding.row
  apart : Apart bound
  /-- What one tree took twice makes one row. -/
  size : router.size = ((bound.map fun binding => (binding.scope, binding.source)).dedup).length
  entries : ∀ scope, ((router.tree scope).root.entries.map some).Perm
    ((bound.filter (·.scope = scope)).map Binding.entry?)

/-- After any calls table and trees are in step, and later calls leave what was bound where it
is.  A call that succeeds adds exactly what its specification asks for; one that meets a taken
pattern adds nothing and leaves the router as it was; and one with a fault adds exactly what
comes before the fault.  All that a call adds has its handler and its rules and was free.  Each
binding has a row of its own, unless a pattern with two wildcards in a segment was taken for the
text of an earlier one. -/
theorem routeAll_inStep (calls : List (RouteSpec × α))
    (rooted : ∀ call ∈ calls, Rooted call.1.template) :
    let router := Router.empty.routeAll calls
    let bound := taken (Router.empty.record calls)
    (∀ rest : List (RouteSpec × α), (∀ call ∈ rest, Rooted call.1.template) →
        (router.routeAll rest).InStep (bound ++ taken (router.record rest))) ∧
      (Uncut (Router.empty.record calls) →
        (bound.map Binding.row).Nodup ∧ router.size = bound.length) ∧
      ∀ spec handler, Rooted spec.template →
        let outcome := router.route spec handler
        let made := taken (router.attempts spec handler)
        outcome.1.InStep (bound ++ made) ∧
          (∀ new ∈ made, new.endpoint = ⟨handler, spec.constraints⟩ ∧
            ∀ old ∈ bound, old.row ≠ new.row) ∧
          match outcome.2 with
          | none => made = bindingsFor ⟨handler, spec.constraints⟩ spec.bindings
          | some (.taken _ _) => made = [] ∧ outcome.1 = router
          | some (.invalid pattern _) =>
              StopsAt ⟨handler, spec.constraints⟩ spec.bindings pattern made := by
  intro router bound
  have start : (Router.empty : Router α).Recorded (taken []) := Recorded.empty
  obtain ⟨recorded, apart⟩ := start.routeAll rooted
    (fun _ impossible => absurd impossible List.not_mem_nil)
  have further : ∀ rest : List (RouteSpec × α), (∀ call ∈ rest, Rooted call.1.template) →
      (router.routeAll rest).InStep (bound ++ taken (router.record rest)) := by
    intro rest begins
    obtain ⟨recordedRest, apartRest⟩ := Recorded.routeAll begins recorded apart
    rw [taken_append] at recordedRest apartRest
    exact ⟨recordedRest.sorted, recordedRest.rows, apartRest, recordedRest.size_dedup apartRest,
      recordedRest.entries⟩
  refine ⟨further, fun uncut => ?_, ?_⟩
  · have distinct := nodup_rows apart (Tracks.start.routeAll rooted uncut).fresh
    refine ⟨distinct, ?_⟩
    have members : ∀ row, row ∈ bound.map Binding.row ↔ ∃ binding ∈ bound, row = binding.row := by
      simp [eq_comm]
    exact (recorded.size distinct members).trans (List.length_map _)
  intro spec handler begins outcome made
  have single : (∀ call ∈ [(spec, handler)], Rooted call.1.template) := by
    intro call member
    rw [List.mem_singleton.mp member]
    exact begins
  have step := further [(spec, handler)] single
  refine ⟨?_, ?_, router.taken_attempts spec handler⟩
  · have same : router.record [(spec, handler)] = router.attempts spec handler :=
      List.append_nil _
    rw [same] at step
    exact step
  · intro new member
    obtain ⟨endpoint, _, fresh⟩ := mem_taken_attempts member
    refine ⟨endpoint, ?_⟩
    intro old before same
    exact fresh ((recorded.rows new.row).mpr ⟨old, before, same.symm⟩)

/-- A specification that names a method twice is bound for the first time and then refused. -/
theorem routeAll_inStep_repeated :
    let calls : List (RouteSpec × String) := [(.exactly "/a/{x}" .any, "first")]
    let router := Router.empty.routeAll calls
    let spec : RouteSpec := .exactly "/b" (.only [.get, .get])
    let outcome := router.route spec "second"
    (∀ call ∈ calls, Rooted call.1.template) ∧ Rooted spec.template ∧
      outcome.1.table = [⟨"/a/{x}", "*"⟩, ⟨"/b", "GET"⟩] ∧
      outcome.1.InStep [⟨.any, "/a/{x}", ⟨"first", []⟩⟩, ⟨.only .get, "/b", ⟨"second", []⟩⟩] ∧
      outcome.2 = some (.invalid "/b" (.refused (.conflict (some "/b")))) ∧
      StopsAt ⟨"second", []⟩ [("/b", .only .get), ("/b", .only .get)] "/b"
        [⟨.only .get, "/b", ⟨"second", []⟩⟩] := by
  intro calls router spec outcome
  have rooted : ∀ call ∈ calls, Rooted call.1.template := by
    intro call member
    rw [List.mem_singleton.mp member]
    exact ⟨"a/{x}", by decide⟩
  have begins : Rooted spec.template := ⟨"b", by decide⟩
  have told := (routeAll_inStep calls rooted).2.2 spec "second" begins
  have before : taken (Router.empty.record calls) = [⟨.any, "/a/{x}", ⟨"first", []⟩⟩] := by
    decide +kernel
  have made : taken (router.attempts spec "second") =
      [⟨.only .get, "/b", ⟨"second", []⟩⟩] := by
    decide +kernel
  have result : outcome.2 = some (.invalid "/b" (.refused (.conflict (some "/b")))) := by
    decide +kernel
  obtain ⟨inStep, _, stops⟩ := told
  rw [before, made] at inStep
  rw [result, made] at stops
  exact ⟨rooted, begins, by decide +kernel, inStep, result, stops⟩

/-- A method that is named twice is bound twice if there are two tails for the pattern to cut. -/
example :
    let calls : List (RouteSpec × Nat) :=
      [(.exactly "/{x}a{{b}}{{b}}" (.one .get), 0), (.exactly "/{x}a{{b}}" (.one .get), 1),
        (.exactly "/{x}a{{b}}{y}" (.one .get), 2), (.exactly "/{x}a{y}" (.only [.get, .get]), 3)]
    (Router.empty.routeAll calls).size = 4 ∧ (taken (Router.empty.record calls)).length = 5 := by
  decide +kernel

end Router

end FunctionGateway.Routing
