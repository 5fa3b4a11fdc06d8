import FunctionGateway.Routing.Router

/-!
# Relabelling what is bound

Neither trees nor routers look at what is bound to a pattern.  So changing every
bound value by a function commutes with all that is done to a router: with
binding a specification, which fails or succeeds alike, and with looking up a path.

A router over pairs, or over values that satisfy some property, can therefore stand for the
two routers, or for the one, that it becomes when its values are relabelled.
-/

namespace FunctionGateway.Routing

open FunctionGateway.Http
open FunctionGateway.Text

variable {α β : Type}

/-! ## Trees -/

def Leaf.map (change : α → β) (leaf : Leaf α) : Leaf β :=
  ⟨leaf.params, change leaf.value⟩

mutual
def Node.map (change : α → β) : Node α → Node β
  | .mk leaf branches wild =>
      .mk (leaf.map (Leaf.map change)) (branches.map change) (wild.map change)

def Branches.map (change : α → β) : Branches α → Branches β
  | .nil => .nil
  | .cons byte visits laid node others =>
      .cons byte visits laid (node.map change) (others.map change)

def Wild.map (change : α → β) : Wild α → Wild β
  | .absent => .absent
  | .param leaf tails => .param (leaf.map (Leaf.map change)) (tails.map change)
  | .remainder name leaf => .remainder name (leaf.map change)

def Tails.map (change : α → β) : Tails α → Tails β
  | .nil => .nil
  | .cons suffix node others => .cons suffix (node.map change) (others.map change)
end

def Capture.map (change : α → β) (capture : Capture α) : Capture β :=
  ⟨change capture.value, capture.names, capture.values⟩

theorem Capture.map_map_withValue (change : α → β) (value : Bytes)
    (capture : Option (Capture α)) :
    (capture.map (·.withValue value)).map (Capture.map change) =
      (capture.map (Capture.map change)).map (·.withValue value) := by
  cases capture <;> rfl

mutual
theorem Node.find_map (change : α → β) (node : Node α) (path : Bytes) :
    (node.map change).find path = (node.find path).map (Capture.map change) := by
  cases node with
  | mk leaf branches wild =>
      cases path with
      | nil => cases leaf <;> rfl
      | cons byte rest =>
          simp only [Node.map, Node.find]
          rw [Branches.find_map change branches byte rest,
            Wild.find_map change wild (byte :: rest)]
          cases branches.find byte rest <;> rfl

theorem Branches.find_map (change : α → β) (branches : Branches α)
    (byte : UInt8) (path : Bytes) :
    (branches.map change).find byte path =
      (branches.find byte path).map (Capture.map change) := by
  cases branches with
  | nil => rfl
  | cons own visits laid node others =>
      simp only [Branches.map, Branches.find]
      by_cases same : own = byte
      · rw [if_pos same, if_pos same]
        exact Node.find_map change node path
      · rw [if_neg same, if_neg same]
        exact Branches.find_map change others byte path

theorem Wild.find_map (change : α → β) (wild : Wild α) (path : Bytes) :
    (wild.map change).find path = (wild.find path).map (Capture.map change) := by
  cases wild with
  | absent => rfl
  | remainder name leaf => rfl
  | param leaf tails =>
      simp only [Wild.map, Wild.find]
      cases path.takeWhile (· ≠ slash) with
      | nil => rfl
      | cons first segment =>
          cases path.dropWhile (· ≠ slash) with
          | nil =>
              rw [← Tails.find_map change tails (first :: segment) []]
              cases leaf <;> rfl
          | cons divider after =>
              exact Tails.find_map change tails (first :: segment ++ [divider]) after none

theorem Tails.find_map (change : α → β) (tails : Tails α) (segment after : Bytes)
    (otherwise : Option (Capture α)) :
    (tails.map change).find segment after (otherwise.map (Capture.map change)) =
      (tails.find segment after otherwise).map (Capture.map change) := by
  cases tails with
  | nil => rfl
  | cons suffix node others =>
      simp only [Tails.map, Tails.find]
      split
      · rw [Node.find_map change node after]
        exact (Capture.map_map_withValue change _ _).symm
      · exact Tails.find_map change others segment after otherwise
end

/-! ## Faults do not depend on values -/

theorem Trail.conflict_map (change : α → β) (trail : Trail) (leaf : Option (Leaf α)) :
    trail.conflict (leaf.map (Leaf.map change)) = trail.conflict leaf := by
  cases leaf <;> rfl

mutual
theorem Node.conflict_map (change : α → β) (trail : Trail) (node : Node α) :
    (node.map change).conflict trail = node.conflict trail := by
  cases node with
  | mk leaf branches wild =>
      simp only [Node.map, Node.conflict]
      rw [Trail.conflict_map, Wild.conflict_map change trail, Branches.conflict_map change trail]

theorem Branches.conflict_map (change : α → β) (trail : Trail) (otherwise : InsertFault)
    (branches : Branches α) :
    (branches.map change).conflict trail otherwise = branches.conflict trail otherwise := by
  cases branches with
  | nil => rfl
  | cons byte visits laid node others =>
      simp only [Branches.map, Branches.conflict]
      rw [Node.conflict_map change (trail.byte byte) node]
      cases node with
      | mk leaf own wild =>
          simp only [Node.map, Node.leaf, Trail.conflict_map]

theorem Wild.conflict_map (change : α → β) (trail : Trail) (otherwise : InsertFault)
    (wild : Wild α) :
    (wild.map change).conflict trail otherwise = wild.conflict trail otherwise := by
  cases wild with
  | absent => rfl
  | remainder name leaf => rfl
  | param leaf tails =>
      simp only [Wild.map, Wild.conflict]
      rw [Trail.conflict_map, Tails.conflict_map change trail.param]

theorem Tails.conflict_map (change : α → β) (trail : Trail) (otherwise : InsertFault)
    (tails : Tails α) :
    (tails.map change).conflict trail otherwise = tails.conflict trail otherwise := by
  cases tails with
  | nil => rfl
  | cons suffix node others => exact Node.conflict_map change (trail.bytes suffix) node
end

/-! ## Insertion -/

theorem Grown.map_map {τ ρ υ : Type} (first : τ → ρ) (second : ρ → υ) (grown : Grown τ) :
    (grown.map first).map second = grown.map (second ∘ first) :=
  rfl

theorem Node.map_stub (change : α → β) (route : Route) :
    (Node.stub route : Node α).map change = Node.stub route := by
  cases route <;> rfl

theorem Node.sprout?_map (change : α → β) (leaf : Leaf α) (route : Route)
    (carried : Option (Leaf α)) (visits : Nat) :
    Node.sprout? (leaf.map change) (carried.map (Leaf.map change)) visits route =
      (Node.sprout? leaf carried visits route).map (Grown.map (Node.map change)) := by
  induction route generalizing carried visits with
  | stop => rfl
  | literal byte next inductionHypothesis =>
      simp only [Node.sprout?]
      rw [inductionHypothesis, Option.map_map, Option.map_map]
      rfl
  | param => rfl
  | paramThen suffix next inductionHypothesis =>
      have behind := inductionHypothesis none 1
      simp only [Option.map_none] at behind
      simp only [Node.sprout?, behind, Option.map_some]
      cases Node.sprout? leaf none 1 next with
      | none =>
          simp only [Option.map_none, Option.getD_none, Grown.map, Node.map, Branches.map,
            Wild.map, Tails.map, Node.map_stub]
      | some grown => rfl
  | remainder name => rfl
  | crowded lead spelled next _ => rfl
  | stray => rfl

theorem Node.sproutBranch_map (change : α → β) (leaf : Leaf α) (route : Route) :
    Node.sproutBranch (leaf.map change) route =
      (Node.sproutBranch leaf route).map fun (laid, node) => (laid, node.map change) := by
  have laid := Node.sprout?_map change leaf route none 1
  simp only [Option.map_none] at laid
  rw [Node.sproutBranch, Node.sproutBranch, laid]
  cases Node.sprout? leaf none 1 route <;> rfl

theorem Node.sproutTail_map (change : α → β) (leaf : Leaf α) (route : Route) :
    Node.sproutTail (leaf.map change) route =
      (Node.sproutTail leaf route).map (Node.map change) := by
  have laid := Node.sprout?_map change leaf route none 1
  simp only [Option.map_none] at laid
  rw [Node.sproutTail, Node.sproutTail, laid]
  cases Node.sprout? leaf none 1 route with
  | none => simp [Grown.map, Node.map_stub]
  | some grown => rfl

theorem Wild.sprout_map (change : α → β) (leaf : Leaf α) (route : Route) :
    Wild.sprout (leaf.map change) route = (Wild.sprout leaf route).map (Wild.map change) := by
  have laid := Node.sprout?_map change leaf route none 1
  simp only [Option.map_none] at laid
  rw [Wild.sprout, Wild.sprout, laid]
  cases Node.sprout? leaf none 1 route with
  | none => rfl
  | some grown =>
      obtain ⟨node, fault⟩ := grown
      cases node
      rfl

theorem Branches.settle_map (change : α → β) (byte : UInt8) (visits : Nat) (laid : Bool)
    (node : Node α) (others : Branches α) :
    (others.settle byte visits laid node).map change =
      (others.map change).settle byte visits laid (node.map change) := by
  cases others with
  | nil => rfl
  | cons first count known sibling rest =>
      simp only [Branches.settle, Branches.map]
      split <;> rfl

theorem Tails.lengths_map (change : α → β) (tails : Tails α) :
    (tails.map change).lengths = tails.lengths := by
  cases tails with
  | nil => rfl
  | cons suffix node others =>
      simp only [Tails.map, Tails.lengths]
      rw [Tails.lengths_map change others]

theorem Tails.putAt_map (change : α → β) (suffix : Bytes) (node : Node α) (place : Nat)
    (tails : Tails α) :
    (tails.putAt suffix node place).map change =
      (tails.map change).putAt suffix (node.map change) place := by
  induction place generalizing tails with
  | zero => rfl
  | succ earlier inductionHypothesis =>
      cases tails with
      | nil => rfl
      | cons other sibling others =>
          simp only [Tails.putAt, Tails.map, inductionHypothesis]

theorem Tails.has_map (change : α → β) (suffix : Bytes) (tails : Tails α) :
    (tails.map change).has suffix = tails.has suffix := by
  cases tails with
  | nil => rfl
  | cons own node others =>
      simp only [Tails.map, Tails.has]
      rw [Tails.has_map change suffix others]

theorem Node.behind_map (change : α → β) (node : Node α) (text : Bytes) :
    (node.behind text).map change = (node.map change).behind text := by
  induction text with
  | nil => rfl
  | cons byte rest inductionHypothesis =>
      simp only [Node.behind, Node.map, Branches.map, Wild.map, Option.map_none,
        inductionHypothesis]

theorem Tails.cut_map (change : α → β) (leaf : Leaf α) (lead spelled : Bytes) (next : Route)
    (tails : Tails α) :
    (tails.map change).cut (leaf.map change) lead spelled next =
      (tails.cut leaf lead spelled next).map (Tails.map change) := by
  cases tails with
  | nil => rfl
  | cons own node others =>
      simp only [Tails.map, Tails.cut]
      by_cases same : own = lead ++ spelled
      · rw [if_pos same, if_pos same, Wild.sprout_map, ← Node.behind_map]
        simp only [Grown.map, Tails.map]
        cases node.behind spelled
        rfl
      · rw [if_neg same, if_neg same, Tails.cut_map change leaf lead spelled next others]
        rfl

mutual
theorem Node.insert_map (change : α → β) (leaf : Leaf α) (node : Node α) (trail : Trail)
    (route : Route) :
    (node.map change).insert (leaf.map change) trail route =
      (node.insert leaf trail route).map (Node.map change) := by
  cases node with
  | mk own branches wild =>
      have atWild :
          ((wild.map change).insert (leaf.map change) trail route).map
              (Node.mk (own.map (Leaf.map change)) (branches.map change) ·) =
            ((wild.insert leaf trail route).map (Node.mk own branches ·)).map
              (Node.map change) := by
        rw [Wild.insert_map change leaf wild trail route]
        rfl
      cases route with
      | stop =>
          cases own with
          | none => rfl
          | some bound => rfl
      | literal byte next =>
          simp only [Node.map, Node.insert]
          rw [Branches.insert_map change leaf branches trail byte next]
          rfl
      | param => exact atWild
      | paramThen suffix next => exact atWild
      | remainder name => exact atWild
      | crowded lead spelled next => exact atWild
      | stray => exact atWild

theorem Branches.insert_map (change : α → β) (leaf : Leaf α) (branches : Branches α)
    (trail : Trail) (byte : UInt8) (route : Route) :
    (branches.map change).insert (leaf.map change) trail byte route =
      (branches.insert leaf trail byte route).map (Branches.map change) := by
  cases branches with
  | nil =>
      simp only [Branches.map, Branches.insert]
      rw [Node.sproutBranch_map]
      rfl
  | cons own visits laid node others =>
      simp only [Branches.map, Branches.insert]
      by_cases same : own = byte
      · rw [if_pos same, if_pos same]
        by_cases there : laid = true
        · rw [if_pos there, if_pos there,
            Node.insert_map change leaf node (trail.byte byte) route]
          rfl
        · rw [if_neg there, if_neg there, Node.sproutBranch_map]
          rfl
      · rw [if_neg same, if_neg same,
          Branches.insert_map change leaf others trail byte route]
        simp only [Grown.map_map]
        simp only [Grown.map, Function.comp, Branches.settle_map]

theorem Wild.insert_map (change : α → β) (leaf : Leaf α) (wild : Wild α) (trail : Trail)
    (route : Route) :
    (wild.map change).insert (leaf.map change) trail route =
      (wild.insert leaf trail route).map (Wild.map change) := by
  cases wild with
  | absent =>
      simp only [Wild.map, Wild.insert]
      exact Wild.sprout_map change leaf route
  | remainder name bound =>
      simp only [Wild.map, Wild.insert]
      rfl
  | param own tails =>
      have refused :
          (⟨(Wild.param own tails).map change,
              some ((tails.map change).conflict trail.pastParam
                (trail.pastParam.conflict (own.map (Leaf.map change))))⟩ : Grown (Wild β)) =
            Grown.map (Wild.map change) ⟨Wild.param own tails,
              some (tails.conflict trail.pastParam (trail.pastParam.conflict own))⟩ := by
        rw [Tails.conflict_map, Trail.conflict_map]
        rfl
      cases route with
      | stop => exact refused
      | literal byte next => exact refused
      | param =>
          cases own with
          | none => rfl
          | some bound => rfl
      | paramThen suffix next =>
          simp only [Wild.map, Wild.insert, Tails.has_map]
          split
          · rw [Tails.insert_map change leaf tails trail.param suffix next]
            rfl
          · rw [Node.sproutTail_map]
            simp only [Grown.map, Wild.map, Tails.place, Tails.putAt_map, Tails.lengths_map]
      | remainder name => exact refused
      | crowded lead spelled next =>
          simp only [Wild.map, Wild.insert]
          rw [Tails.cut_map]
          rfl
      | stray => exact refused

theorem Tails.insert_map (change : α → β) (leaf : Leaf α) (tails : Tails α) (trail : Trail)
    (suffix : Bytes) (route : Route) :
    (tails.map change).insert (leaf.map change) trail suffix route =
      (tails.insert leaf trail suffix route).map (Tails.map change) := by
  cases tails with
  | nil => rfl
  | cons own node others =>
      simp only [Tails.map, Tails.insert]
      by_cases same : own = suffix
      · rw [if_pos same, if_pos same,
          Node.insert_map change leaf node (trail.bytes suffix) route]
        rfl
      · rw [if_neg same, if_neg same,
          Tails.insert_map change leaf others trail suffix route]
        rfl
end

namespace PathTree

def map (change : α → β) (tree : PathTree α) : PathTree β :=
  ⟨tree.attempts, tree.root.map change⟩

theorem insert_map (change : α → β) (pattern : Pattern) (value : α) (tree : PathTree α) :
    (tree.map change).insert pattern (change value) =
      (tree.insert pattern value).map (PathTree.map change) := by
  obtain ⟨attempts, root⟩ := tree
  cases root with
  | mk leaf branches wild =>
      have below := Node.insert_map change ⟨pattern.params, value⟩ (.mk leaf branches wild)
        Trail.start pattern.route
      have afresh := Node.sprout?_map change ⟨pattern.params, value⟩ pattern.route leaf
        (attempts + 1)
      simp only [Leaf.map] at below afresh
      cases branches with
      | nil =>
          cases wild with
          | absent =>
              simp only [insert, map, Node.map, Branches.map, Wild.map]
              rw [afresh]
              cases Node.sprout? ⟨pattern.params, value⟩ leaf (attempts + 1) pattern.route <;>
                rfl
          | param own tails =>
              simp only [insert, map, Node.map, Branches.map, Wild.map] at below ⊢
              rw [below]
              rfl
          | remainder name bound =>
              simp only [insert, map, Node.map, Branches.map, Wild.map] at below ⊢
              rw [below]
              rfl
      | cons byte visits laid node others =>
          simp only [insert, map, Node.map, Branches.map] at below ⊢
          rw [below]
          rfl

def Match.map (change : α → β) (found : Match α) : Match β :=
  ⟨change found.value, found.params⟩

theorem find_map (change : α → β) (tree : PathTree α) (path : String) :
    (tree.map change).find path = (tree.find path).map (Match.map change) := by
  simp only [find, map, Node.find_map]
  cases tree.root.find (encodeUtf8 path) <;> rfl

end PathTree

/-! ## Routers -/

def Endpoint.map (change : α → β) (endpoint : Endpoint α) : Endpoint β :=
  ⟨change endpoint.handler, endpoint.constraints⟩

namespace Router

def map (change : α → β) (router : Router α) : Router β :=
  { byMethod := router.byMethod.map fun (method, tree) =>
      (method, tree.map (Endpoint.map change))
    any := router.any.map (Endpoint.map change)
    table := router.table }

def Lookup.map (change : α → β) : Lookup α → Lookup β
  | .found handler params => .found (change handler) params
  | .methodNotAllowed allowed => .methodNotAllowed allowed
  | .notFound => .notFound

theorem methodTree_map (change : α → β) (router : Router α) (method : Method) :
    (router.map change).methodTree method =
      (router.methodTree method).map (Endpoint.map change) := by
  simp only [methodTree, map]
  induction router.byMethod with
  | nil => rfl
  | cons first rest inductionHypothesis =>
      obtain ⟨own, tree⟩ := first
      by_cases same : method = own
      · simp [same]
      · simpa [List.lookup_cons, beq_false_of_ne same] using inductionHypothesis

theorem tree_map (change : α → β) (router : Router α) (scope : Scope) :
    (router.map change).tree scope = (router.tree scope).map (Endpoint.map change) := by
  cases scope with
  | any => rfl
  | only method => exact methodTree_map change router method

theorem withTree_map (change : α → β) (router : Router α) (scope : Scope)
    (tree : PathTree (Endpoint α)) :
    (router.map change).withTree scope (tree.map (Endpoint.map change)) =
      (router.withTree scope tree).map change := by
  cases scope with
  | any => rfl
  | only method =>
      simp only [withTree, map]
      congr 1
      induction router.byMethod with
      | nil => rfl
      | cons first rest inductionHypothesis =>
          obtain ⟨own, old⟩ := first
          simp only [List.map_cons, replaceTree]
          split
          · rfl
          · rw [inductionHypothesis]
            rfl

theorem bindPattern_map (change : α → β) (router : Router α) (endpoint : Endpoint α)
    (pattern : String) (scope : Scope) :
    (router.map change).bindPattern (endpoint.map change) pattern scope =
      ((router.bindPattern endpoint pattern scope).1.map change,
        (router.bindPattern endpoint pattern scope).2) := by
  simp only [bindPattern]
  cases Pattern.read? pattern with
  | error fault => rfl
  | ok readable =>
      simp only [tree_map, PathTree.insert_map]
      simp only [Grown.map, withTree_map]
      cases ((router.tree scope).insert readable endpoint).fault <;> rfl

theorem bindEach_map (change : α → β) (endpoint : Endpoint α)
    (pairs : List (String × Scope)) (router : Router α) :
    bindEach (endpoint.map change) (router.map change) pairs =
      ((bindEach endpoint router pairs).1.map change,
        (bindEach endpoint router pairs).2) := by
  induction pairs generalizing router with
  | nil => rfl
  | cons first rest inductionHypothesis =>
      obtain ⟨pattern, scope⟩ := first
      simp only [bindEach, bindPattern_map]
      cases bound : router.bindPattern endpoint pattern scope with
      | mk changed fault =>
          cases fault with
          | none => exact inductionHypothesis changed
          | some fault => rfl

/-- Binding a relabelled handler on a relabelled router goes as binding the handler on
the router, and fails with the same fault if it fails. -/
theorem route_map (change : α → β) (router : Router α) (spec : RouteSpec) (handler : α) :
    (router.map change).route spec (change handler) =
      ((router.route spec handler).1.map change, (router.route spec handler).2) := by
  have taken : (router.map change).conflict? spec = router.conflict? spec := rfl
  simp only [route, taken]
  cases router.conflict? spec with
  | none => exact bindEach_map change ⟨handler, spec.constraints⟩ spec.bindings router
  | some fault => rfl

theorem matched_map (change : α → β) (tree : PathTree (Endpoint α)) (path : String) :
    matched (tree.map (Endpoint.map change)) path =
      (matched tree path).map fun (handler, params) => (change handler, params) := by
  simp only [matched, PathTree.find_map]
  cases tree.find path with
  | none => rfl
  | some found =>
      obtain ⟨endpoint, params⟩ := found
      simp only [Option.map_some, PathTree.Match.map, Endpoint.map]
      have same : ∀ own : β,
          (Endpoint.mk own endpoint.constraints).admits params = endpoint.admits params :=
        fun _ => rfl
      rw [same]
      split <;> rfl

theorem otherMethods_map (change : α → β) (router : Router α) (method : Method)
    (path : String) :
    (router.map change).otherMethods method path = router.otherMethods method path := by
  have matching : ∀ trees : List (Method × PathTree (Endpoint α)),
      ((trees.map fun (own, tree) => (own, tree.map (Endpoint.map change))).filter
          fun (own, tree) => own ≠ method && (matched tree path).isSome).map (·.1) =
        (trees.filter fun (own, tree) =>
          own ≠ method && (matched tree path).isSome).map (·.1) := by
    intro trees
    rw [List.filter_map, List.map_map]
    congr 1
    refine List.filter_congr fun first _ => ?_
    simp only [Function.comp, matched_map, Option.isSome_map]
  simp only [otherMethods, map, matching]

/-- A relabelled router finds what the router finds, relabelled. -/
theorem lookup_map (change : α → β) (router : Router α) (method : Method) (path : String) :
    (router.map change).lookup method path = (router.lookup method path).map change := by
  have atAny : matched (router.map change).any path =
      (matched router.any path).map fun (handler, params) => (change handler, params) :=
    matched_map change router.any path
  simp only [lookup, methodTree_map, matched_map, atAny, otherMethods_map]
  cases matched (router.methodTree method) path with
  | some found => rfl
  | none =>
      cases matched router.any path with
      | some found => rfl
      | none =>
          simp only [Option.map_none]
          cases router.otherMethods method path <;> rfl

theorem resolve_map (change : α → β) (router : Router α) (request : Request) :
    (router.map change).resolve request = (router.resolve request).map change :=
  lookup_map change router request.method (Percent.decode request.path)

/-! ## Routers bound in step -/

/-- Two routers that hold the same patterns with related handlers, as one router over related
pairs shows them. -/
def Related (relation : α → β → Prop) (first : Router α) (second : Router β) : Prop :=
  ∃ paired : Router { pair : α × β // relation pair.1 pair.2 },
    paired.map (fun pair => pair.1.1) = first ∧ paired.map (fun pair => pair.1.2) = second

variable {relation : α → β → Prop} {first : Router α} {second : Router β}

theorem related_empty : Related relation Router.empty Router.empty :=
  ⟨Router.empty, rfl, rfl⟩

/-- Related handlers are bound alike, also where binding fails half-way. -/
theorem Related.route (related : Related relation first second) (spec : RouteSpec)
    {left : α} {right : β} (alike : relation left right) :
    Related relation (first.route spec left).1 (second.route spec right).1 ∧
      (first.route spec left).2 = (second.route spec right).2 := by
  obtain ⟨paired, rfl, rfl⟩ := related
  let pair : { pair : α × β // relation pair.1 pair.2 } := ⟨(left, right), alike⟩
  have onLeft := route_map (fun pair => pair.1.1) paired spec pair
  have onRight := route_map (fun pair => pair.1.2) paired spec pair
  rw [onLeft, onRight]
  exact ⟨⟨(paired.route spec pair).1, rfl, rfl⟩, rfl⟩

/-- Related routers resolve a request alike, to related handlers if to any. -/
theorem Related.resolve (related : Related relation first second) (request : Request) :
    (∃ left right params, relation left right ∧
        first.resolve request = .found left params ∧
        second.resolve request = .found right params) ∨
      (∃ allowed, first.resolve request = .methodNotAllowed allowed ∧
        second.resolve request = .methodNotAllowed allowed) ∨
      (first.resolve request = .notFound ∧ second.resolve request = .notFound) := by
  obtain ⟨paired, rfl, rfl⟩ := related
  rw [resolve_map, resolve_map]
  cases paired.resolve request with
  | found pair params => exact Or.inl ⟨_, _, params, pair.2, rfl, rfl⟩
  | methodNotAllowed allowed => exact Or.inr (Or.inl ⟨allowed, rfl, rfl⟩)
  | notFound => exact Or.inr (Or.inr ⟨rfl, rfl⟩)

end Router

end FunctionGateway.Routing
