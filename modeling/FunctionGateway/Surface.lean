import FunctionGateway.Capability
import FunctionGateway.Routing.Router
import FunctionGateway.Service.Stack

/-!
# The bound surface

The table says for every capability which route it answers, whether the route
asks for credentials, and what an empty slot means: binding fails, the route is
left out, or a fixed answer takes its place. Binding goes through the table row
by row and decorates each handler once: instrumented outermost, then cut off at
the write deadline, then guarded. The metrics exposition is bound last and
bare.
-/

namespace FunctionGateway

open FunctionGateway.Http
open FunctionGateway.Routing

/-- What an empty slot means for its route. -/
inductive Absent where
  | fail
  | skip
  | notImplemented
deriving DecidableEq

structure SurfaceRow where
  capability : Capability
  route : RouteSpec
  absent : Absent

namespace Surface

def metricsPath : String := "/metrics"

/-- The capabilities whose routes ask for credentials. -/
def authRequired : List Capability :=
  [.functionLister, .deployFunction, .deleteFunction, .updateFunction, .functionStatus,
    .scaleFunction, .info, .secrets, .logs, .registerFunction]

/-- A route whose parameter `name` has to be a valid name. -/
def named (template : String) (methods : MethodSet) : RouteSpec :=
  (RouteSpec.exactly template methods).constrain "name" .name

def functionsPath : String := "/system/functions"

def namespacePath : String := "/system/namespace/\x7bname\x7d"

/-- The row of each capability, in declaration order. -/
def table : List SurfaceRow :=
  [⟨.functionLister, .exactly functionsPath (.one .get), .fail⟩,
    ⟨.deployFunction, .exactly functionsPath (.one .post), .fail⟩,
    ⟨.deleteFunction, .exactly functionsPath (.one .delete), .fail⟩,
    ⟨.updateFunction, .exactly functionsPath (.one .put), .fail⟩,
    ⟨.functionStatus, named "/system/function/\x7bname\x7d" (.one .get), .fail⟩,
    ⟨.scaleFunction, named "/system/scale-function/\x7bname\x7d" (.one .post), .fail⟩,
    ⟨.info, .exactly "/system/info" (.one .get), .fail⟩,
    ⟨.secrets, .exactly "/system/secrets" (.only [.get, .put, .post, .delete]), .fail⟩,
    ⟨.logs, .exactly "/system/logs" (.one .get), .fail⟩,
    ⟨.listNamespaces, .exactly "/system/namespaces" (.one .get), .fail⟩,
    ⟨.mutateNamespace,
      (named namespacePath (.only [.get, .post, .delete, .put])).withOptionalTail,
      .notImplemented⟩,
    ⟨.functionProxy, (named "/function/\x7bname\x7d" .any).withSuffixes, .fail⟩,
    ⟨.health, .exactly "/healthz" (.one .get), .skip⟩,
    ⟨.registerFunction, .exactly "/system/register" (.one .post), .skip⟩,
    ⟨.invokeFunction, (named "/invoke/\x7bname\x7d" .any).withSuffixes, .skip⟩,
    ⟨.metricFunction, .exactly "/system/metrics" (.only [.get, .delete]), .skip⟩,
    ⟨.listCheckpoint, .exactly "/system/checkpoints" (.one .get), .skip⟩,
    ⟨.killAllInstance, .exactly "/danger/kill" (.only [.get, .post, .put]), .skip⟩]

end Surface

def SurfaceRow.requiresAuth (row : SurfaceRow) : Bool :=
  Surface.authRequired.contains row.capability

namespace Surface

variable {α : Type}

/-- The answer that stands in for a capability that is not implemented. -/
def notImplemented : Response :=
  Response.statusText Status.notImplemented
    "Feature not implemented in this version of OpenFaaS"

/-- The layers round a handler: instrument, deadline and guard, as far as they apply. -/
def layers (template : String) (deadline : Option Duration) (auth : Option Credentials) :
    Stack (Service α) :=
  let instrumented := Stack.empty.push (Layer.instrument template)
  let bounded :=
    match deadline with
    | some limit => instrumented.push (Layer.deadline limit)
    | none => instrumented
  match auth with
  | some credentials => bounded.push (Layer.guard credentials)
  | none => bounded

/-- What one row contributes to a router. -/
inductive Contribution (α : Type) where
  /-- A route, its undecorated service, and whether it is guarded. -/
  | bound (route : RouteSpec) (service : Service α) (guarded : Bool)
  | withheld
  | missing

/-- What a row contributes, given the filled slots. -/
def contribution (capabilities : CapabilitySet (Service α)) (row : SurfaceRow) :
    Contribution α :=
  match capabilities.get? row.capability, row.absent with
  | some service, _ => .bound row.route service row.requiresAuth
  | none, .fail => .missing
  | none, .skip => .withheld
  | none, .notImplemented =>
      .bound (named row.route.template (.one .get)).withOptionalTail (.answer notImplemented) false

inductive BindFault where
  | missing (capability : Capability)
  | route (fault : RouteFault)
deriving DecidableEq

/-- Bind rows from the first on, up to the first that fails. -/
def bindRows (capabilities : CapabilitySet (Service α)) (deadline : Option Duration)
    (auth : Option Credentials) :
    Router (Service α) → List SurfaceRow → Router (Service α) × Option BindFault
  | router, [] => (router, none)
  | router, row :: rest =>
      match contribution capabilities row with
      | .missing => (router, some (.missing row.capability))
      | .withheld => bindRows capabilities deadline auth router rest
      | .bound spec service guarded =>
          let stack := layers spec.template deadline (if guarded then auth else none)
          match router.route spec (stack.apply service) with
          | (changed, none) => bindRows capabilities deadline auth changed rest
          | (changed, some fault) => (changed, some (.route fault))

def metricsRoute : RouteSpec := .exactly metricsPath (.one .get)

/-- Bind every capability and, last, the metrics exposition. -/
def bind (router : Router (Service α)) (capabilities : CapabilitySet (Service α))
    (deadline : Option Duration) (auth : Option Credentials) :
    Router (Service α) × Option BindFault :=
  match bindRows capabilities deadline auth router table with
  | (changed, some fault) => (changed, some fault)
  | (changed, none) =>
      match changed.route metricsRoute .exposition with
      | (complete, fault) => (complete, fault.map .route)

end Surface

/-! ## Dispatching -/

/-- Hand a request to the service its path leads to, or answer it directly. -/
def dispatch {α φ σ : Type} (backend : Backend α φ σ) (router : Router (Service α))
    (request : Request) (world : World σ) : Pending φ × World σ :=
  match router.resolve request with
  | .found service params => service.call backend (request.withParams params) world
  | .methodNotAllowed allowed => (.done (methodNotAllowed allowed), world)
  | .notFound => (.done notFound, world)

end FunctionGateway
