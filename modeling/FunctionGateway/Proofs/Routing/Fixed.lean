import FunctionGateway.Proofs.Routing.Showing
import FunctionGateway.Proofs.Routing.Table

/-!
# Paths that cannot be taken over

A path that is bound as it stands, without wildcards, leads along literal branches to its leaf,
and a literal branch is tried before anything else.  Nothing that is inserted later moves
it: a branch that was laid stays, whatever grows beside it, and its leaf is not given up, be the
insertion taken, refused, or stopped half-way.
-/

namespace FunctionGateway.Routing

open FunctionGateway.Http
open FunctionGateway.Text

variable {α : Type}

/-! ## Runs of literal branches -/

mutual
/-- The bytes of a path lead along branches to a leaf.  The branches were laid, and there is
no second one for the same byte. -/
def Node.Leads (leaf : Leaf α) : Node α → Bytes → Prop
  | .mk own _ _, [] => own = some leaf
  | .mk _ branches _, byte :: path => branches.Leads leaf byte path

def Branches.Leads (leaf : Leaf α) : Branches α → UInt8 → Bytes → Prop
  | .nil, _, _ => False
  | .cons own _ laid node others, byte, path =>
      if own = byte then laid = true ∧ byte ∉ others.bytes ∧ node.Leads leaf path
      else others.Leads leaf byte path
end

section Leads

variable {leaf : Leaf α}

mutual
/-- A path is found where its bytes lead. -/
theorem Node.find_of_leads {node : Node α} {path : Bytes} (leads : node.Leads leaf path) :
    node.find path = some leaf.capture := by
  cases node with
  | mk own branches wild =>
      cases path with
      | nil =>
          rw [Node.Leads] at leads
          rw [Node.find, leads]
          rfl
      | cons byte rest =>
          rw [Node.find, Branches.find_of_leads leads]

theorem Branches.find_of_leads {branches : Branches α} {byte : UInt8} {path : Bytes}
    (leads : branches.Leads leaf byte path) : branches.find byte path = some leaf.capture := by
  cases branches with
  | nil => exact leads.elim
  | cons own visits laid node others =>
      rw [Branches.Leads] at leads
      rw [Branches.find]
      split at leads
      · rename_i same
        rw [if_pos same, Node.find_of_leads leads.2.2]
      · rename_i different
        rw [if_neg different, Branches.find_of_leads leads]
end

/-! ## Insertions beside a run -/

theorem Branches.mem_bytes_insert (new : Leaf α) (branches : Branches α) (trail : Trail)
    (byte : UInt8) (route : Route) (asked : UInt8) :
    asked ∈ (branches.insert new trail byte route).part.bytes ↔
      asked = byte ∨ asked ∈ branches.bytes := by
  cases branches with
  | nil => simp [Branches.insert, Branches.bytes]
  | cons own visits laid node others =>
      rw [Branches.insert]
      by_cases same : own = byte
      · subst same
        cases laid <;> simp [Branches.bytes]
      · rw [if_neg same, Grown.part_map, Branches.mem_bytes_settle,
          Branches.mem_bytes_insert new others, Branches.bytes, List.mem_cons]
        exact or_left_comm

/-- A run goes on wherever its branch stands among the others. -/
theorem Branches.leads_settle {own : UInt8} {visits : Nat} {laid : Bool} {node : Node α}
    {others : Branches α} {byte : UInt8} {path : Bytes}
    (leads : (Branches.cons own visits laid node others).Leads leaf byte path) :
    (others.settle own visits laid node).Leads leaf byte path := by
  cases others with
  | nil => exact leads
  | cons first count known sibling rest =>
      rw [Branches.settle]
      split
      -- The branch goes behind the first one: a run may use either of the two, or neither.
      · simp only [Branches.Leads, Branches.bytes, List.mem_cons, not_or] at leads ⊢
        by_cases here : own = byte
        · rw [if_pos here] at leads ⊢
          obtain ⟨isLaid, ⟨notFirst, fresh⟩, inner⟩ := leads
          rw [if_neg (Ne.symm notFirst)]
          exact ⟨isLaid, fresh, inner⟩
        · rw [if_neg here] at leads ⊢
          split at leads
          · rename_i isFirst
            rw [if_pos isFirst]
            exact ⟨leads.1, ⟨Ne.symm here, leads.2.1⟩, leads.2.2⟩
          · rename_i notFirst
            rw [if_neg notFirst]
            exact leads
      · exact leads

mutual
/-- An insertion leaves a run as it is, whatever comes of it. -/
theorem Node.leads_insert (new : Leaf α) {node : Node α} {path : Bytes}
    (leads : node.Leads leaf path) (trail : Trail) (route : Route) :
    (node.insert new trail route).part.Leads leaf path := by
  cases node with
  | mk own branches wild =>
      -- What a wildcard comes to is nothing to a run.
      have beside : ∀ other : Wild α, (Node.mk own branches other).Leads leaf path := by
        intro other
        cases path <;> exact leads
      cases route with
      | stop =>
          cases own with
          | some bound => exact leads
          | none =>
              cases path with
              | nil => exact nomatch leads
              | cons byte rest => exact leads
      | literal byte next =>
          cases path with
          | nil => exact leads
          | cons asked rest => exact Branches.leads_insert new leads trail byte next
      | param => exact beside _
      | paramThen suffix next => exact beside _
      | remainder name => exact beside _
      | crowded lead spelled next => exact beside _
      | stray => exact beside _

theorem Branches.leads_insert (new : Leaf α) {branches : Branches α} {asked : UInt8}
    {path : Bytes} (leads : branches.Leads leaf asked path) (trail : Trail) (byte : UInt8)
    (route : Route) : (branches.insert new trail byte route).part.Leads leaf asked path := by
  cases branches with
  | nil => exact leads.elim
  | cons own visits laid node others =>
      rw [Branches.insert]
      by_cases visited : own = byte
      · rw [if_pos visited]
        by_cases here : own = asked
        · rw [Branches.Leads, if_pos here] at leads
          obtain ⟨rfl, fresh, inner⟩ := leads
          simp only [if_true, Grown.part_map, Branches.Leads, if_pos here]
          exact ⟨trivial, fresh, Node.leads_insert new inner _ route⟩
        · rw [Branches.Leads, if_neg here] at leads
          cases laid <;>
            simp only [Bool.false_eq_true, if_true, if_false, Grown.part_map, Branches.Leads,
              if_neg here] <;>
            exact leads
      · rw [if_neg visited, Grown.part_map]
        -- A new branch for `byte` may come behind this one, so the byte of the run must differ.
        refine Branches.leads_settle ?_
        rw [Branches.Leads] at leads ⊢
        by_cases here : own = asked
        · rw [if_pos here] at leads ⊢
          obtain ⟨isLaid, fresh, inner⟩ := leads
          refine ⟨isLaid, ?_, inner⟩
          rw [Branches.mem_bytes_insert, not_or]
          exact ⟨fun same => visited (here.trans same), fresh⟩
        · rw [if_neg here] at leads ⊢
          exact Branches.leads_insert new leads trail byte route
end

/-! ## Literal routes -/

/-- The route of a text without wildcards. -/
def Route.run : Bytes → Route
  | [] => .stop
  | byte :: rest => .literal byte (Route.run rest)

mutual
/-- What is bound at the end of a literal route, its bytes lead to. -/
theorem Node.leads_of_bound {tried : Route → Prop} {node : Node α} (stems : node.Stems tried)
    {path : Bytes} (bound : node.bound (Route.run path) = some leaf) : node.Leads leaf path := by
  cases node with
  | mk own branches wild =>
      obtain ⟨_, below, _⟩ := stems
      cases path with
      | nil => exact bound
      | cons byte rest => exact Branches.leads_of_bound below bound

theorem Branches.leads_of_bound {tried : Route → Prop} {branches : Branches α}
    (stems : branches.Stems tried) {byte : UInt8} {path : Bytes}
    (bound : branches.bound byte (Route.run path) = some leaf) :
    branches.Leads leaf byte path := by
  cases branches with
  | nil => exact nomatch bound
  | cons own visits laid node others =>
      obtain ⟨known, below, fresh, rest⟩ := stems
      rw [Branches.bound] at bound
      rw [Branches.Leads]
      by_cases here : own = byte
      · rw [if_pos here] at bound ⊢
        refine ⟨?_, here ▸ fresh, Node.leads_of_bound below bound⟩
        cases laid with
        | true => rfl
        | false =>
            rw [known rfl, Node.bound_empty] at bound
            exact nomatch bound
      · rw [if_neg here] at bound ⊢
        exact Branches.leads_of_bound rest bound
end

end Leads

theorem Piece.readFrom_of_no_brace (room : Nat) {text : Bytes}
    (plain : ∀ byte ∈ text, byte ≠ braceOpen ∧ byte ≠ braceClose) :
    Piece.readFrom room (.outside 0) [] (text.map (⟨·, false⟩)) = .ok (text.map .literal) := by
  induction text with
  | nil => rfl
  | cons byte rest inductionHypothesis =>
      obtain ⟨⟨notOpen, notClose⟩, others⟩ := List.forall_mem_cons.mp plain
      simp [Piece.readFrom, notOpen, notClose, inductionHypothesis others, Except.map]

theorem Route.ofPieces_literals (text : Bytes) :
    Route.ofPieces (text.map .literal) = Route.run text := by
  induction text with
  | nil => rfl
  | cons byte rest inductionHypothesis => exact congrArg (Route.literal byte) inductionHypothesis

/-- A text without braces is read as it stands. -/
theorem Pattern.read?_of_braceless {source : String} (braceless : Braceless source) :
    Pattern.read? source = .ok ⟨[], Route.run (encodeUtf8 source)⟩ := by
  have names : ((encodeUtf8 source).map Piece.literal).filterMap Piece.paramName? = [] := by
    simp [List.filterMap_map, Function.comp_def, Piece.paramName?]
  rw [Pattern.read?, Piece.read?, Glyph.read_of_no_brace _ braceless,
    Piece.readFrom_of_no_brace _ braceless, Except.map, names, Route.ofPieces_literals]

/-! ## Trees -/

/-- A tree in which a path, not the empty one, leads to a value without parameters. -/
def PathTree.Fixes (tree : PathTree α) (path : String) (value : α) : Prop :=
  path ≠ "" ∧ tree.root.Leads ⟨[], value⟩ (encodeUtf8 path)

namespace PathTree

variable {tree : PathTree α} {path : String} {value : α}

theorem Fixes.find (fixes : tree.Fixes path value) : tree.find path = some ⟨value, []⟩ := by
  rw [PathTree.find, Node.find_of_leads fixes.2]
  rfl

/-- A tree goes on to lead a path where it leads, whatever is inserted. -/
theorem Fixes.insert (fixes : tree.Fixes path value) (pattern : Pattern) (other : α) :
    (tree.insert pattern other).part.Fixes path value := by
  obtain ⟨nonempty, leads⟩ := fixes
  refine ⟨nonempty, ?_⟩
  obtain ⟨attempts, ⟨own, branches, wild⟩⟩ := tree
  have general := Node.leads_insert ⟨pattern.params, other⟩ leads Trail.start pattern.route
  cases branches with
  | cons byte visits laid node others => exact general
  | nil =>
      -- A tree without branches would be laid out afresh, but it leads only the empty path.
      cases bytes : encodeUtf8 path with
      | nil => exact absurd (encodeUtf8_eq_nil_iff.mp bytes) nonempty
      | cons byte rest =>
          rw [bytes] at leads
          exact leads.elim

end PathTree

/-! ## Routers -/

/-- A router whose tree for a method leads a path to an endpoint. -/
def Router.Fixes (router : Router α) (method : Method) (path : String) (endpoint : Endpoint α) :
    Prop :=
  (router.methodTree method).Fixes path endpoint

namespace Router

/-- What every attempt preserves, whatever it comes to, is there after any calls. -/
theorem routeAll_preserves {motive : Router α → Prop}
    (step : ∀ router endpoint pattern scope, motive router →
      motive (router.bindPattern endpoint pattern scope).1)
    {router : Router α} (start : motive router) (calls : List (RouteSpec × α)) :
    motive (router.routeAll calls) := by
  let own : Router α → List (Attempt α) → Prop := fun router _ => motive router
  refine @routeAll_induction α own calls ?_ router [] start
  intro other log spec handler _ before
  refine @route_induction α own spec handler ?_ other log before
  intro further record pattern scope _ earlier
  exact step further _ pattern scope earlier

variable {router : Router α} {method : Method} {path : String} {endpoint : Endpoint α}

/-- The tree of the method is asked first, and there are no parameters that could be
refused. -/
theorem Fixes.lookup (fixes : router.Fixes method path endpoint) :
    router.lookup method path = .found endpoint.handler [] := by
  have admits : endpoint.admits [] = true := List.all_eq_true.mpr fun _ _ => rfl
  have own : matched (router.methodTree method) path = some (endpoint.handler, []) := by
    rw [matched, PathTree.Fixes.find fixes]
    exact if_pos admits
  rw [Router.lookup, own]

theorem Fixes.bindPattern (fixes : router.Fixes method path endpoint) (other : Endpoint α)
    (pattern : String) (scope : Scope) :
    (router.bindPattern other pattern scope).1.Fixes method path endpoint := by
  rw [Router.bindPattern]
  cases Pattern.read? pattern with
  | error fault => exact fixes
  | ok readable =>
      have kept : (router.withTree scope ((router.tree scope).insert readable other).part).Fixes
          method path endpoint := by
        change PathTree.Fixes (Router.tree _ (.only method)) path endpoint
        rw [tree_withTree]
        split
        · rename_i same
          subst same
          exact PathTree.Fixes.insert fixes readable other
        · exact fixes
      cases fault : ((router.tree scope).insert readable other).fault with
      | some cause =>
          simp only [fault]
          exact kept
      | none =>
          simp only [fault]
          exact kept

/-- What a router leads a path to, it leads it to after any calls. -/
theorem Fixes.routeAll (fixes : router.Fixes method path endpoint)
    (calls : List (RouteSpec × α)) : (router.routeAll calls).Fixes method path endpoint :=
  routeAll_preserves (motive := fun router => router.Fixes method path endpoint)
    (fun _ other pattern scope earlier => earlier.bindPattern other pattern scope) fixes calls

theorem mem_table_bindPattern {row : RouteEntry} (listed : row ∈ router.table)
    (other : Endpoint α) (pattern : String) (scope : Scope) :
    row ∈ (router.bindPattern other pattern scope).1.table := by
  rw [Router.bindPattern]
  cases Pattern.read? pattern with
  | error fault => exact listed
  | ok readable =>
      simp only
      split
      · rwa [table_withTree]
      · rw [table_withTree]
        exact (RouteEntry.mem_insertInto _ _ _).mpr (Or.inr listed)

/-- A row that is in the table stays there. -/
theorem mem_table_routeAll {row : RouteEntry} (listed : row ∈ router.table)
    (calls : List (RouteSpec × α)) : row ∈ (router.routeAll calls).table :=
  routeAll_preserves (motive := fun router => row ∈ router.table)
    (fun _ other pattern scope earlier => mem_table_bindPattern earlier other pattern scope)
    listed calls

end Router

/-- A literal pattern on record as taken leads to its endpoint. -/
theorem Tracks.fixes {router : Router α} {log : List (Attempt α)}
    (tracks : Tracks router.tree log) {method : Method} {path : String} {endpoint : Endpoint α}
    (bound : Bound log ⟨.only method, path, endpoint⟩) (braceless : Braceless path) :
    router.Fixes method path endpoint := by
  constructor
  · obtain ⟨attempt, member, _, same⟩ := bound
    obtain ⟨rest, rooted⟩ := tracks.rooted attempt member
    rw [same] at rooted
    rintro rfl
    simpa using congrArg String.toList rooted
  · refine Node.leads_of_bound (tracks.stems (.only method)) ?_
    exact (tracks.bound (.only method) _ _).mpr
      ⟨_, bound, rfl, _, Pattern.read?_of_braceless braceless, rfl, rfl⟩

end FunctionGateway.Routing
