import FunctionGateway.Http.Request
import FunctionGateway.Http.Response
import FunctionGateway.Routing.PathTree
import FunctionGateway.Routing.Spec
import FunctionGateway.Text.Percent

/-!
# The router

A router has one path tree per method and one for routes that answer any method,
beside a sorted table of what is bound. A request is matched, on its decoded
path, first in the tree of its method and then in the any-method tree. A match
whose parameters break a rule counts as no match at all. A path that only other
methods answer is reported with those methods, in byte order.

Binding a specification first makes sure that none of its patterns is taken, and
then adds pattern by pattern and method by method. A pattern the tree refuses
stops there, with what was added before it still bound.
-/

namespace FunctionGateway.Routing

open FunctionGateway.Http
open FunctionGateway.Text

/-- What a pattern is bound to: a handler and the rules for its parameters. -/
structure Endpoint (α : Type) where
  handler : α
  constraints : List (String × Constraint)

/-- Every constrained parameter that the path has satisfies its rule. Of a name used
twice in a pattern the first value is checked. -/
def Endpoint.admits {α : Type} (endpoint : Endpoint α) (params : List (String × String)) : Bool :=
  endpoint.constraints.all fun (name, rule) =>
    match params.lookup name with
    | some value => rule.admits value
    | none => true

inductive Scope where
  | any
  | only (method : Method)
deriving DecidableEq

/-- How the route table shows a tree: `*` for any method. -/
def Scope.label : Scope → String
  | .any => "*"
  | .only method => method.token

/-- The trees a method set stands for. -/
def scopes : MethodSet → List Scope
  | .any => [.any]
  | .only methods => methods.map .only

/-- The pairs of pattern and tree a specification binds, in binding order. -/
def RouteSpec.bindings (spec : RouteSpec) : List (String × Scope) :=
  spec.patterns.flatMap fun pattern => (scopes spec.methods).map (pattern, ·)

/-- A row of the route table. -/
structure RouteEntry where
  pattern : String
  method : String
deriving DecidableEq

/-- Rows are ordered by pattern and then by method. -/
def RouteEntry.before (first second : RouteEntry) : Bool :=
  first.pattern < second.pattern ||
    (first.pattern == second.pattern && first.method < second.method)

/-- Add a row to a sorted table; a row it has already is not repeated. -/
def RouteEntry.insertInto (entry : RouteEntry) : List RouteEntry → List RouteEntry
  | [] => [entry]
  | first :: rest =>
      if entry = first then first :: rest
      else if entry.before first then entry :: first :: rest
      else first :: entry.insertInto rest

theorem RouteEntry.mem_insertInto (entry other : RouteEntry) (rows : List RouteEntry) :
    other ∈ entry.insertInto rows ↔ other = entry ∨ other ∈ rows := by
  induction rows with
  | nil => simp [RouteEntry.insertInto]
  | cons first rest ih =>
      by_cases same : entry = first
      · simp [RouteEntry.insertInto, same]
      · by_cases early : entry.before first = true
        · simp [RouteEntry.insertInto, same, early]
        · simp only [RouteEntry.insertInto, same, early, if_false, Bool.false_eq_true,
            List.mem_cons, ih]
          exact or_left_comm

inductive PatternRefusal where
  | unreadable (fault : PatternFault)
  | refused (fault : InsertFault)
deriving DecidableEq

/-- Why a specification was not bound in full. -/
inductive RouteFault where
  /-- The pattern is bound already, for a method the specification has too. -/
  | taken (method pattern : String)
  | invalid (pattern : String) (cause : PatternRefusal)
deriving DecidableEq

/-- A refusal that leaves nothing to report: too many parameters, and a conflict with
what has no text. It ends the program rather than the binding. -/
def PatternRefusal.isFatal : PatternRefusal → Bool
  | .unreadable .tooManyParams => true
  | .refused (.conflict none) => true
  | _ => false

def RouteFault.isFatal : RouteFault → Bool
  | .taken _ _ => false
  | .invalid _ cause => cause.isFatal

/-- The path trees and the table of bound routes. -/
structure Router (α : Type) where
  byMethod : List (Method × PathTree (Endpoint α)) := []
  any : PathTree (Endpoint α) := PathTree.empty
  table : List RouteEntry := []

namespace Router

variable {α : Type}

def empty : Router α := {}

/-- The tree of a method; a method nothing is bound for has the empty tree. -/
def methodTree (router : Router α) (method : Method) : PathTree (Endpoint α) :=
  (router.byMethod.lookup method).getD PathTree.empty

def tree (router : Router α) : Scope → PathTree (Endpoint α)
  | .any => router.any
  | .only method => router.methodTree method

/-- Replace the tree of a method, adding the method if it is new. -/
def replaceTree (method : Method) (tree : PathTree (Endpoint α)) :
    List (Method × PathTree (Endpoint α)) → List (Method × PathTree (Endpoint α))
  | [] => [(method, tree)]
  | (own, old) :: rest =>
      if own = method then (own, tree) :: rest
      else (own, old) :: replaceTree method tree rest

def withTree (router : Router α) : Scope → PathTree (Endpoint α) → Router α
  | .any, tree => { router with any := tree }
  | .only method, tree =>
      { router with byMethod := replaceTree method tree router.byMethod }

theorem lookup_replaceTree (method other : Method) (tree : PathTree (Endpoint α))
    (trees : List (Method × PathTree (Endpoint α))) :
    (replaceTree method tree trees).lookup other =
      if other = method then some tree else trees.lookup other := by
  induction trees with
  | nil =>
      by_cases same : other = method
      · simp [replaceTree, same]
      · simp [replaceTree, List.lookup_cons, beq_false_of_ne same, same]
  | cons first rest ih =>
      obtain ⟨own, old⟩ := first
      by_cases found : own = method
      · by_cases same : other = method
        · simp [replaceTree, found, same]
        · simp [replaceTree, found, List.lookup_cons, beq_false_of_ne same, same]
      · by_cases same : other = own
        · subst same
          simp [replaceTree, found]
        · simp [replaceTree, found, List.lookup_cons, beq_false_of_ne same, ih]

/-- Replacing one tree leaves the others as they were. -/
theorem tree_withTree (router : Router α) (scope other : Scope) (tree : PathTree (Endpoint α)) :
    (router.withTree scope tree).tree other =
      if other = scope then tree else router.tree other := by
  cases scope with
  | any => cases other <;> simp [withTree, Router.tree, methodTree]
  | only method =>
      cases other with
      | any => simp [withTree, Router.tree]
      | only asked =>
          by_cases same : asked = method
          · simp [withTree, Router.tree, methodTree, lookup_replaceTree, same]
          · simp [withTree, Router.tree, methodTree, lookup_replaceTree, same]

/-! ## Binding -/

def bindPattern (router : Router α) (endpoint : Endpoint α) (pattern : String) (scope : Scope) :
    Router α × Option RouteFault :=
  match Pattern.read? pattern with
  | .error fault => (router, some (.invalid pattern (.unreadable fault)))
  | .ok readable =>
      let grown := (router.tree scope).insert readable endpoint
      let changed := router.withTree scope grown.part
      match grown.fault with
      | some fault => (changed, some (.invalid pattern (.refused fault)))
      | none =>
          let entry : RouteEntry := { pattern, method := scope.label }
          ({ changed with table := entry.insertInto changed.table }, none)

/-- Bind patterns one after the other, up to the first that is refused. -/
def bindEach (endpoint : Endpoint α) :
    Router α → List (String × Scope) → Router α × Option RouteFault
  | router, [] => (router, none)
  | router, (pattern, scope) :: rest =>
      match router.bindPattern endpoint pattern scope with
      | (changed, none) => bindEach endpoint changed rest
      | (changed, some fault) => (changed, some fault)

/-- The first label a pattern is bound under that gets in the way of `methods`. -/
def takenBy? (router : Router α) (methods : MethodSet) (pattern : String) : Option String :=
  let bound := (router.table.filter (·.pattern = pattern)).map RouteEntry.method
  match methods with
  | .any => bound.head?
  | .only list => bound.find? fun label => label == "*" || list.any (·.token == label)

/-- The first pattern of a specification that is taken, as a fault. -/
def conflict? (router : Router α) (spec : RouteSpec) : Option RouteFault :=
  spec.patterns.findSome? fun pattern =>
    (router.takenBy? spec.methods pattern).map fun label => .taken label pattern

/-- Bind `handler` to every pattern and method of a specification. -/
def route (router : Router α) (spec : RouteSpec) (handler : α) : Router α × Option RouteFault :=
  match router.conflict? spec with
  | some fault => (router, some fault)
  | none => bindEach ⟨handler, spec.constraints⟩ router spec.bindings

def size (router : Router α) : Nat :=
  router.table.length

/-! ## Looking up -/

/-- A match in one tree whose parameters satisfy every rule. -/
def matched (tree : PathTree (Endpoint α)) (path : String) :
    Option (α × List (String × String)) :=
  match tree.find path with
  | some found =>
      if found.value.admits found.params then some (found.value.handler, found.params) else none
  | none => none

/-- What a router has for a method and a path. -/
inductive Lookup (α : Type) where
  | found (handler : α) (params : List (String × String))
  | methodNotAllowed (allowed : List Method)
  | notFound

/-- The methods with a tree of their own that matches, in byte order. -/
def otherMethods (router : Router α) (method : Method) (path : String) : List Method :=
  let matching := router.byMethod.filter fun (own, tree) =>
    own ≠ method && (matched tree path).isSome
  (matching.map (·.1)).mergeSort fun first second => first.token ≤ second.token

/-- Match a decoded path. -/
def lookup (router : Router α) (method : Method) (path : String) : Lookup α :=
  match matched (router.methodTree method) path with
  | some (handler, params) => .found handler params
  | none =>
      match matched router.any path with
      | some (handler, params) => .found handler params
      | none =>
          match router.otherMethods method path with
          | [] => .notFound
          | allowed => .methodNotAllowed allowed

/-- Match the path of a request, decoded once. -/
def resolve (router : Router α) (request : Request) : Lookup α :=
  router.lookup request.method (Percent.decode request.path)

end Router

/-! ## Answers of the router itself -/

/-- The answer for a path no method answers. -/
def notFound : Response :=
  Response.statusText Status.notFound "404 page not found"

/-- The answer for a path other methods answer, which it lists. -/
def methodNotAllowed (allowed : List Method) : Response :=
  let draft : Draft := { status := Status.methodNotAllowed }
  match FieldValue.ofBytes? (encodeUtf8 (String.intercalate ", " (allowed.map Method.token))) with
  | some value => (draft.withField FieldName.allow value).noBody
  | none => draft.noBody

/-! ## Wording of faults -/

def InsertFault.message : InsertFault → String
  | .conflict bound =>
      "Insertion failed due to conflict with previously registered route: " ++ bound.getD ""
  | .crowdedSegment => "Only one parameter is allowed per path segment"
  | .misplacedRest => "Catch-all parameters are only allowed at the end of a route"

def PatternFault.message : PatternFault → String
  | .badName => "Parameters must be registered with a valid name"
  | .tooManyParams => "Too many route parameters."

def PatternRefusal.message : PatternRefusal → String
  | .unreadable fault => fault.message
  | .refused fault => fault.message

def RouteFault.message : RouteFault → String
  | .taken method pattern =>
      "route \x60" ++ method ++ " " ++ pattern ++ "\x60 is already registered"
  | .invalid pattern cause => "invalid route \x60" ++ pattern ++ "\x60: " ++ cause.message

end FunctionGateway.Routing
