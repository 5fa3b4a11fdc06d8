/-!
# Capabilities

What a provider can do is a fixed list of capabilities, each with one slot that
is empty or holds a handler. An empty slot is a legitimate state: the capability
is withheld, and the bound surface decides what that means for its routes.
-/

namespace FunctionGateway

/-- Everything a provider may offer, in the order in which routes are bound. -/
inductive Capability where
  | functionLister
  | deployFunction
  | deleteFunction
  | updateFunction
  | functionStatus
  | scaleFunction
  | info
  | secrets
  | logs
  | listNamespaces
  | mutateNamespace
  | functionProxy
  | health
  | registerFunction
  | invokeFunction
  | metricFunction
  | listCheckpoint
  | killAllInstance
deriving DecidableEq

namespace Capability

def all : List Capability :=
  [functionLister, deployFunction, deleteFunction, updateFunction, functionStatus, scaleFunction,
    info, secrets, logs, listNamespaces, mutateNamespace, functionProxy, health, registerFunction,
    invokeFunction, metricFunction, listCheckpoint, killAllInstance]

theorem mem_all (capability : Capability) : capability ∈ all := by
  cases capability <;> decide

def words : Capability → List String
  | functionLister => ["function", "lister"]
  | deployFunction => ["deploy", "function"]
  | deleteFunction => ["delete", "function"]
  | updateFunction => ["update", "function"]
  | functionStatus => ["function", "status"]
  | scaleFunction => ["scale", "function"]
  | info => ["info"]
  | secrets => ["secrets"]
  | logs => ["logs"]
  | listNamespaces => ["list", "namespaces"]
  | mutateNamespace => ["mutate", "namespace"]
  | functionProxy => ["function", "proxy"]
  | health => ["health"]
  | registerFunction => ["register", "function"]
  | invokeFunction => ["invoke", "function"]
  | metricFunction => ["metric", "function"]
  | listCheckpoint => ["list", "checkpoint"]
  | killAllInstance => ["kill", "all", "instance"]

/-- The name in lower case with hyphens: `function-lister`. -/
def name (capability : Capability) : String :=
  String.intercalate "-" capability.words

/-- The name in capitalised words without a gap: `FunctionLister`. -/
def title (capability : Capability) : String :=
  String.join (capability.words.map String.capitalize)

def ofName? (text : String) : Option Capability :=
  all.find? (·.name == text)

end Capability

/-- One slot per capability. -/
structure CapabilitySet (α : Type) where
  get? : Capability → Option α

namespace CapabilitySet

variable {α : Type}

def empty : CapabilitySet α := ⟨fun _ => none⟩

def insert (set : CapabilitySet α) (capability : Capability) (handler : α) : CapabilitySet α :=
  ⟨fun slot => if slot = capability then some handler else set.get? slot⟩

def erase (set : CapabilitySet α) (capability : Capability) : CapabilitySet α :=
  ⟨fun slot => if slot = capability then none else set.get? slot⟩

def contains (set : CapabilitySet α) (capability : Capability) : Bool :=
  (set.get? capability).isSome

@[simp]
theorem get?_empty (slot : Capability) : (empty : CapabilitySet α).get? slot = none :=
  rfl

theorem get?_insert (set : CapabilitySet α) (capability slot : Capability) (handler : α) :
    (set.insert capability handler).get? slot =
      if slot = capability then some handler else set.get? slot :=
  rfl

theorem get?_erase (set : CapabilitySet α) (capability slot : Capability) :
    (set.erase capability).get? slot =
      if slot = capability then none else set.get? slot :=
  rfl

/-- Filled slots in declaration order. -/
def present (set : CapabilitySet α) : List Capability :=
  Capability.all.filter set.contains

theorem mem_present (set : CapabilitySet α) (capability : Capability) :
    capability ∈ set.present ↔ set.contains capability = true := by
  simp [present, Capability.mem_all]

/-- The titles of the filled slots in braces. -/
def text (set : CapabilitySet α) : String :=
  "\x7b" ++ String.intercalate ", " (set.present.map Capability.title) ++ "\x7d"

end CapabilitySet

end FunctionGateway
