import FunctionGateway.Service.Stack

/-!
# Assembling stacks

A stack is assembled from layers and from other stacks, which may be put in as one layer or
appended, and those are assembled in the same ways.  All that remains of this is the list of the
layers from left to right: whatever services are and whatever the layers do to them, the stack
puts these layers round a service, the first one outermost.  Two assemblies with different lists
are told apart by some layers, so that neither the order nor the number of the layers is lost.
-/

namespace FunctionGateway

/-- How a stack is assembled from layers that go by names. -/
inductive Assembly (δ : Type) where
  | empty
  | push (outer : Assembly δ) (own : δ)
  /-- Add the other stack as a single layer. -/
  | nest (outer inner : Assembly δ)
  | andThen (outer inner : Assembly δ)

namespace Assembly

variable {δ σ : Type}

/-- The stack that is assembled, given the layer that each name stands for. -/
def stack (layer : δ → Layer σ) : Assembly δ → Stack σ
  | empty => Stack.empty
  | push outer own => (outer.stack layer).push (layer own)
  | nest outer inner => (outer.stack layer).push (inner.stack layer).apply
  | andThen outer inner => (outer.stack layer).andThen (inner.stack layer)

/-- The names of the layers, from left to right. -/
def leaves : Assembly δ → List δ
  | empty => []
  | push outer own => outer.leaves ++ [own]
  | nest outer inner => outer.leaves ++ inner.leaves
  | andThen outer inner => outer.leaves ++ inner.leaves

/-- Two assemblies do the same to every service, whatever the names stand for. -/
def Alike (first second : Assembly δ) : Prop :=
  ∀ (σ : Type) (layer : δ → Layer σ) (service : σ),
    (first.stack layer).apply service = (second.stack layer).apply service

theorem apply_stack (layer : δ → Layer σ) (assembly : Assembly δ) (service : σ) :
    (assembly.stack layer).apply service = assembly.leaves.foldr layer service := by
  induction assembly generalizing service with
  | empty => rfl
  | push outer own inductionHypothesis =>
      rw [stack, Stack.apply_push, inductionHypothesis, leaves, List.foldr_append]
      rfl
  | nest outer inner outerHypothesis innerHypothesis =>
      rw [stack, Stack.apply_push, innerHypothesis, outerHypothesis, leaves, List.foldr_append]
  | andThen outer inner outerHypothesis innerHypothesis =>
      rw [stack, Stack.apply_andThen, innerHypothesis, outerHypothesis, leaves,
        List.foldr_append]

/-- Layers that write down their names leave the list of them. -/
theorem apply_stack_cons (assembly : Assembly δ) :
    (assembly.stack List.cons).apply [] = assembly.leaves := by
  rw [apply_stack, List.foldr_cons_nil]

theorem alike_iff {first second : Assembly δ} :
    first.Alike second ↔ first.leaves = second.leaves := by
  constructor
  · intro alike
    have written := alike (List δ) List.cons []
    rwa [apply_stack_cons, apply_stack_cons] at written
  · intro same σ layer service
    rw [apply_stack, apply_stack, same]

/-- However a stack is assembled, applying it to a service puts the layers round it in the order
in which they were written, the first one outermost; and assemblies do the same for all layers
just when they name the same layers in the same order.  So it makes no difference how
stacks are grouped or whether they are nested, and empty ones may stand anywhere. -/
theorem apply_assembled (assembly : Assembly δ) :
    (∀ (σ : Type) (layer : δ → Layer σ) (service : σ),
      (assembly.stack layer).apply service = assembly.leaves.foldr layer service) ∧
    (∀ other : Assembly δ, assembly.Alike other ↔ assembly.leaves = other.leaves) ∧
    (∀ second third : Assembly δ,
      ((assembly.andThen second).andThen third).Alike (assembly.andThen (second.andThen third)) ∧
      (assembly.nest (second.andThen third)).Alike (assembly.andThen (second.andThen third))) ∧
    ∀ blank : Assembly δ, blank.leaves = [] →
      (assembly.andThen blank).Alike assembly ∧ (blank.andThen assembly).Alike assembly ∧
        (assembly.nest blank).Alike assembly ∧ (blank.nest assembly).Alike assembly := by
  refine ⟨fun σ layer service => apply_stack layer assembly service, fun _ => alike_iff, ?_, ?_⟩
  · intro second third
    simp only [alike_iff, leaves, List.append_assoc, and_self]
  · intro blank none
    simp only [alike_iff, leaves, none, List.append_nil, List.nil_append, and_self]

/-- Each layer signs what comes out of it, so the innermost one signs first. -/
example :
    let sign : String → Layer (List String) := fun name inner => inner ++ [name]
    let nested := (empty.push "a").nest ((empty.push "b").nest (empty.push "c"))
    (nested.stack sign).apply ["handler"] = ["handler", "c", "b", "a"] :=
  rfl

end Assembly

end FunctionGateway
