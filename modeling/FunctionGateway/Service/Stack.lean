import FunctionGateway.Service.Basic

/-!
# Layers and stacks of layers

A layer turns a service into a decorated one. A stack is a list of layers, the
outermost first, and is itself a layer, so stacks nest; one stack may also be
appended to another. Nothing here depends on what a service is.
-/

namespace FunctionGateway

abbrev Layer (σ : Type) := σ → σ

/-- Layers in order, the outermost first. -/
structure Stack (σ : Type) where
  layers : List (Layer σ) := []
deriving Inhabited

namespace Stack

variable {σ : Type}

def empty : Stack σ := {}

/-- Add a layer inside all others. -/
def push (stack : Stack σ) (layer : Layer σ) : Stack σ :=
  ⟨stack.layers ++ [layer]⟩

/-- Append the layers of another stack inside those of this one. -/
def andThen (stack inner : Stack σ) : Stack σ :=
  ⟨stack.layers ++ inner.layers⟩

def size (stack : Stack σ) : Nat := stack.layers.length

def isEmpty (stack : Stack σ) : Bool := stack.layers.isEmpty

/-- Put every layer round a service, the first one outermost. -/
def apply (stack : Stack σ) : Layer σ := fun service =>
  stack.layers.foldr (fun layer inner => layer inner) service

theorem apply_empty (service : σ) : empty.apply service = service :=
  rfl

theorem apply_push (stack : Stack σ) (layer : Layer σ) (service : σ) :
    (stack.push layer).apply service = stack.apply (layer service) := by
  simp [apply, push]

theorem apply_andThen (stack inner : Stack σ) (service : σ) :
    (stack.andThen inner).apply service = stack.apply (inner.apply service) := by
  simp [apply, andThen]

end Stack

namespace Layer

variable {α : Type}

def guard (credentials : Credentials) : Layer (Service α) :=
  Service.guarded credentials

/-- Cut the service off at a limit; a limit of zero is none. -/
def deadline (limit : Duration) : Layer (Service α) := fun service =>
  if limit.isZero then service else Service.bounded limit service

/-- Count the service under a template. -/
def instrument (template : String) : Layer (Service α) :=
  Service.counted template

def alter (change : Http.Response → Http.Response) : Layer (Service α) :=
  Service.altered change

end Layer

end FunctionGateway
