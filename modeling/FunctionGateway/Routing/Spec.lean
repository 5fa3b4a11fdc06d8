import FunctionGateway.Name
import FunctionGateway.Http.MethodSet

/-!
# Route specifications

A specification names a template, the methods it answers, the rules its path
parameters have to satisfy, and a shape. The shape says which concrete patterns
stand for the template: the template alone, the template followed by any
suffix, or the template with its last segment left out. All patterns of one
specification share its template, which is what the metrics report.
-/

namespace FunctionGateway.Routing

open FunctionGateway.Http

inductive Constraint where
  | name
deriving DecidableEq

def Constraint.admits : Constraint → String → Bool
  | .name, value => isValidName value

/-- Which concrete patterns stand for a template. -/
inductive Shape where
  | exact
  | suffixed
  | optionalTail
deriving DecidableEq

/-- A template with its methods, its parameter rules and its shape. -/
structure RouteSpec where
  template : String
  methods : MethodSet
  constraints : List (String × Constraint) := []
  shape : Shape := .exact
deriving DecidableEq

namespace RouteSpec

/-- The specification that matches `template` exactly. -/
def exactly (template : String) (methods : MethodSet) : RouteSpec :=
  { template, methods }

/-- Match also the template followed by `/` and by `/` and any further text. -/
def withSuffixes (spec : RouteSpec) : RouteSpec :=
  { spec with shape := .suffixed }

/-- Match also the template without its last segment. -/
def withOptionalTail (spec : RouteSpec) : RouteSpec :=
  { spec with shape := .optionalTail }

/-- Require the parameter `param` to satisfy `rule`. -/
def constrain (spec : RouteSpec) (param : String) (rule : Constraint) : RouteSpec :=
  { spec with constraints := spec.constraints ++ [(param, rule)] }

/-- The template up to and including its last `/`; a template without one has the
head `/`. -/
def headOf (template : String) : String :=
  match (template.toList.reverse.dropWhile (· ≠ '/')).reverse with
  | [] => "/"
  | head => String.ofList head

/-- The concrete patterns a specification binds, in binding order. -/
def patterns (spec : RouteSpec) : List String :=
  match spec.shape with
  | .exact => [spec.template]
  | .suffixed =>
      [spec.template, spec.template ++ "/", spec.template ++ "/\x7b*params\x7d"]
  | .optionalTail => [headOf spec.template, spec.template]

end RouteSpec

end FunctionGateway.Routing
