import FunctionGateway.Proofs.Routing.Grouping
import FunctionGateway.Routing.PathTree

/-!
# How a tree grows

A tree is seen here as the routes that lead to a leaf in it, each with its leaf.  An insertion
either adds its route to them or leaves them as they are; it fails only for a route
that is not regular or that clashes with one tried before.

What holds a tree together is that it stems from the routes tried so far: no two
branches share their byte, tails stand longest first without repetition, and there is
nothing in the tree that none of those routes asked for.  Refused routes count, since they may
leave nodes behind.
-/

namespace FunctionGateway.Routing

open FunctionGateway.Text

variable {α : Type}

@[simp]
theorem Grown.part_map {τ ρ : Type} (wrap : τ → ρ) (grown : Grown τ) :
    (grown.map wrap).part = wrap grown.part :=
  rfl

@[simp]
theorem Grown.fault_map {τ ρ : Type} (wrap : τ → ρ) (grown : Grown τ) :
    (grown.map wrap).fault = grown.fault :=
  rfl

/-! ## What is bound in a tree -/

mutual
/-- The leaf at the end of a route. -/
def Node.bound : Node α → Route → Option (Leaf α)
  | .mk leaf _ _, .stop => leaf
  | .mk _ branches _, .literal byte next => branches.bound byte next
  | .mk _ _ wild, route => wild.bound route

def Branches.bound : Branches α → UInt8 → Route → Option (Leaf α)
  | .nil, _, _ => none
  | .cons own _ _ node others, byte, next =>
      if own = byte then node.bound next else others.bound byte next

def Wild.bound : Wild α → Route → Option (Leaf α)
  | .param leaf _, .param => leaf
  | .param _ tails, .paramThen suffix next => tails.bound suffix next
  | .remainder own leaf, .remainder name => if own = name then some leaf else none
  | _, _ => none

def Tails.bound : Tails α → Bytes → Route → Option (Leaf α)
  | .nil, _, _ => none
  | .cons own node others, suffix, next =>
      if own = suffix then node.bound next else others.bound suffix next
end

def Branches.bytes : Branches α → List UInt8
  | .nil => []
  | .cons byte _ _ _ others => byte :: others.bytes

def Tails.texts : Tails α → List Bytes
  | .nil => []
  | .cons suffix _ others => suffix :: others.texts

/-- What may stand in front of a shorter tail, or of another one as long. -/
def Tails.Ahead (first second : Bytes) : Prop :=
  second ≠ first ∧ second.length ≤ first.length

mutual
/-- A node that the routes tried from it on account for. -/
def Node.Stems (tried : Route → Prop) : Node α → Prop
  | .mk leaf branches wild =>
      (leaf.isSome = true → tried .stop) ∧ branches.Stems tried ∧ wild.Stems tried

def Branches.Stems (tried : Route → Prop) : Branches α → Prop
  | .nil => True
  | .cons byte _ laid node others =>
      (laid = false → node = Node.empty) ∧ node.Stems (fun next => tried (.literal byte next)) ∧
        byte ∉ others.bytes ∧ others.Stems tried

def Wild.Stems (tried : Route → Prop) : Wild α → Prop
  | .absent => True
  | .param leaf tails =>
      (leaf.isSome = true → tried .param) ∧ (leaf = none → tails.texts ≠ []) ∧
        tails.texts.Pairwise Tails.Ahead ∧ tails.Stems tried
  | .remainder name _ => tried (.remainder name)

def Tails.Stems (tried : Route → Prop) : Tails α → Prop
  | .nil => True
  | .cons suffix node others =>
      (∃ next, tried (.paramThen suffix next)) ∧
        node.Stems (fun next => tried (.paramThen suffix next)) ∧ others.Stems tried
end

theorem Node.bound_wildcard (leaf : Option (Leaf α)) (branches : Branches α) (wild : Wild α)
    {route : Route} (wildcard : route.isWildcard = true) :
    (Node.mk leaf branches wild).bound route = wild.bound route := by
  cases route with
  | stop => exact nomatch wildcard
  | literal byte next => exact nomatch wildcard
  | _ => rfl

theorem Wild.bound_of_not_wildcard {wild : Wild α} {route : Route}
    (other : route.isWildcard = false) : wild.bound route = none := by
  cases route with
  | stop => cases wild <;> rfl
  | literal byte next => cases wild <;> rfl
  | _ => exact nomatch other

mutual
theorem Node.Stems.mono {tried more : Route → Prop} (included : ∀ route, tried route → more route)
    {node : Node α} (stems : node.Stems tried) : node.Stems more := by
  cases node with
  | mk leaf branches wild =>
      obtain ⟨ends, below, beside⟩ := stems
      exact ⟨fun filled => included _ (ends filled), Branches.Stems.mono included below,
        Wild.Stems.mono included beside⟩

theorem Branches.Stems.mono {tried more : Route → Prop}
    (included : ∀ route, tried route → more route) {branches : Branches α}
    (stems : branches.Stems tried) : branches.Stems more := by
  cases branches with
  | nil => trivial
  | cons byte visits laid node others =>
      obtain ⟨known, below, fresh, rest⟩ := stems
      exact ⟨known, Node.Stems.mono (fun next => included (.literal byte next)) below, fresh,
        Branches.Stems.mono included rest⟩

theorem Wild.Stems.mono {tried more : Route → Prop} (included : ∀ route, tried route → more route)
    {wild : Wild α} (stems : wild.Stems tried) : wild.Stems more := by
  cases wild with
  | absent => trivial
  | param leaf tails =>
      obtain ⟨ends, filled, sorted, below⟩ := stems
      exact ⟨fun full => included _ (ends full), filled, sorted, Tails.Stems.mono included below⟩
  | remainder name leaf => exact included _ stems

theorem Tails.Stems.mono {tried more : Route → Prop} (included : ∀ route, tried route → more route)
    {tails : Tails α} (stems : tails.Stems tried) : tails.Stems more := by
  cases tails with
  | nil => trivial
  | cons suffix node others =>
      obtain ⟨⟨next, asked⟩, below, rest⟩ := stems
      exact ⟨⟨next, included _ asked⟩,
        Node.Stems.mono (fun later => included (.paramThen suffix later)) below,
        Tails.Stems.mono included rest⟩
end

mutual
/-- What is bound was tried. -/
theorem Node.tried_of_bound {tried : Route → Prop} {node : Node α} (stems : node.Stems tried)
    {route : Route} {leaf : Leaf α} (bound : node.bound route = some leaf) : tried route := by
  cases node with
  | mk own branches wild =>
      obtain ⟨ends, below, beside⟩ := stems
      cases route with
      | stop =>
          simp only [Node.bound] at bound
          exact ends (by simp [bound])
      | literal byte next => exact Branches.tried_of_bound below bound
      | param => exact Wild.tried_of_bound beside bound
      | paramThen suffix next => exact Wild.tried_of_bound beside bound
      | remainder name => exact Wild.tried_of_bound beside bound
      | crowded lead spelled next => exact Wild.tried_of_bound beside bound
      | stray => exact Wild.tried_of_bound beside bound

theorem Branches.tried_of_bound {tried : Route → Prop} {branches : Branches α}
    (stems : branches.Stems tried) {byte : UInt8} {route : Route} {leaf : Leaf α}
    (bound : branches.bound byte route = some leaf) : tried (.literal byte route) := by
  cases branches with
  | nil => exact nomatch bound
  | cons own visits laid node others =>
      obtain ⟨_, below, _, rest⟩ := stems
      simp only [Branches.bound] at bound
      split at bound
      · rename_i same
        subst same
        exact Node.tried_of_bound below bound
      · exact Branches.tried_of_bound rest bound

theorem Wild.tried_of_bound {tried : Route → Prop} {wild : Wild α} (stems : wild.Stems tried)
    {route : Route} {leaf : Leaf α} (bound : wild.bound route = some leaf) : tried route := by
  cases wild with
  | absent => exact nomatch bound
  | param own tails =>
      obtain ⟨ends, _, _, below⟩ := stems
      cases route with
      | param =>
          simp only [Wild.bound] at bound
          exact ends (by simp [bound])
      | paramThen suffix next => exact Tails.tried_of_bound below bound
      | _ => exact nomatch bound
  | remainder name own =>
      cases route with
      | remainder asked =>
          simp only [Wild.bound] at bound
          split at bound
          · rename_i same
            exact same ▸ stems
          · exact nomatch bound
      | _ => exact nomatch bound

theorem Tails.tried_of_bound {tried : Route → Prop} {tails : Tails α} (stems : tails.Stems tried)
    {suffix : Bytes} {route : Route} {leaf : Leaf α}
    (bound : tails.bound suffix route = some leaf) : tried (.paramThen suffix route) := by
  cases tails with
  | nil => exact nomatch bound
  | cons own node others =>
      obtain ⟨_, below, rest⟩ := stems
      simp only [Tails.bound] at bound
      split at bound
      · rename_i same
        subst same
        exact Node.tried_of_bound below bound
      · exact Tails.tried_of_bound rest bound
end

theorem Tails.bound_of_not_mem {tails : Tails α} {suffix : Bytes} (absent : suffix ∉ tails.texts)
    (route : Route) : tails.bound suffix route = none := by
  cases tails with
  | nil => rfl
  | cons own node others =>
      simp only [Tails.texts, List.mem_cons, not_or] at absent
      rw [Tails.bound, if_neg (Ne.symm absent.1)]
      exact Tails.bound_of_not_mem absent.2 route

theorem Tails.tried_of_mem {tried : Route → Prop} {tails : Tails α} (stems : tails.Stems tried)
    {suffix : Bytes} (member : suffix ∈ tails.texts) : ∃ next, tried (.paramThen suffix next) := by
  cases tails with
  | nil => exact absurd member List.not_mem_nil
  | cons own node others =>
      obtain ⟨asked, _, rest⟩ := stems
      rcases List.mem_cons.mp member with rfl | behind
      · exact asked
      · exact Tails.tried_of_mem rest behind

end FunctionGateway.Routing
