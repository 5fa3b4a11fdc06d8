import FunctionGateway.Proofs.Routing.Growth
import Mathlib.Data.List.Perm.Basic

/-!
# What a tree holds

A tree holds a leaf for every pattern that was put in it.  Read off with the places on the way
to it and the names of its wildcards, a leaf tells its pattern, whatever shape the tree has
come to; so the contents of a tree are a list of such entries, and their order
says nothing.

An insertion adds its own entry or none at all.  This holds of every pattern, those with two
wildcards in a segment included: when a tail is cut for such a pattern, what was behind the
tail stays behind the same places.
-/

namespace FunctionGateway.Routing

open FunctionGateway.Text

variable {α : Type}

/-- A pattern in a tree: its places, the names of its wildcards, and what is bound to it. -/
structure Entry (α : Type) where
  places : List Place
  names : List Bytes
  value : α
deriving DecidableEq

namespace Entry

/-- An entry seen from further up in the tree. -/
def behind (front : List Place) (entry : Entry α) : Entry α :=
  { entry with places := front ++ entry.places }

theorem behind_behind (first second : List Place) (entry : Entry α) :
    (entry.behind second).behind first = entry.behind (first ++ second) := by
  simp only [behind, List.append_assoc]

end Entry

/-- The name of the remainder that a route ends with, if it ends with one. -/
def Route.lastName : Route → List Bytes
  | .literal _ next => next.lastName
  | .paramThen _ next => next.lastName
  | .crowded _ _ next => next.lastName
  | .remainder name => [name]
  | _ => []

/-- The entry of a leaf at the end of a route. -/
def Leaf.entryAt (leaf : Leaf α) (route : Route) : Entry α :=
  ⟨route.places, leaf.params ++ route.lastName, leaf.value⟩

namespace Leaf

@[simp]
theorem entryAt_literal (leaf : Leaf α) (byte : UInt8) (next : Route) :
    leaf.entryAt (.literal byte next) = (leaf.entryAt next).behind [.literal byte] :=
  rfl

@[simp]
theorem entryAt_paramThen (leaf : Leaf α) (suffix : Bytes) (next : Route) :
    leaf.entryAt (.paramThen suffix next) =
      (leaf.entryAt next).behind (.param :: suffix.map .literal) :=
  rfl

@[simp]
theorem entryAt_crowded (leaf : Leaf α) (lead spelled : Bytes) (next : Route) :
    leaf.entryAt (.crowded lead spelled next) =
      (leaf.entryAt next).behind (.param :: lead.map .literal) :=
  rfl

end Leaf

/-- The entry of a leaf where there may be none. -/
def Leaf.entries (route : Route) : Option (Leaf α) → List (Entry α)
  | some leaf => [leaf.entryAt route]
  | none => []

@[simp]
theorem Leaf.entries_none (route : Route) : Leaf.entries route (none : Option (Leaf α)) = [] :=
  rfl

@[simp]
theorem Leaf.entries_some (route : Route) (leaf : Leaf α) :
    Leaf.entries route (some leaf) = [leaf.entryAt route] :=
  rfl

mutual
/-- The entries of a tree, as they are seen from a node. -/
def Node.entries : Node α → List (Entry α)
  | .mk leaf branches wild => Leaf.entries .stop leaf ++ (branches.entries ++ wild.entries)

def Branches.entries : Branches α → List (Entry α)
  | .nil => []
  | .cons byte _ _ node others =>
      node.entries.map (Entry.behind [.literal byte]) ++ others.entries

def Wild.entries : Wild α → List (Entry α)
  | .absent => []
  | .param leaf tails => Leaf.entries .param leaf ++ tails.entries
  | .remainder name leaf => [leaf.entryAt (.remainder name)]

def Tails.entries : Tails α → List (Entry α)
  | .nil => []
  | .cons suffix node others =>
      node.entries.map (Entry.behind (.param :: suffix.map .literal)) ++ others.entries
end

mutual
/-- Nothing is kept behind a branch that was not laid. -/
def Node.Laid : Node α → Prop
  | .mk _ branches wild => branches.Laid ∧ wild.Laid

def Branches.Laid : Branches α → Prop
  | .nil => True
  | .cons _ _ laid node others => (laid = false → node = Node.empty) ∧ node.Laid ∧ others.Laid

def Wild.Laid : Wild α → Prop
  | .absent => True
  | .param _ tails => tails.Laid
  | .remainder _ _ => True

def Tails.Laid : Tails α → Prop
  | .nil => True
  | .cons _ node others => node.Laid ∧ others.Laid
end

theorem Node.laid_empty : (Node.empty : Node α).Laid :=
  ⟨trivial, trivial⟩

/-- Behind a branch that was laid there may be anything. -/
theorem Branches.laid_cons (byte : UInt8) (visits : Nat) {node : Node α} {others : Branches α}
    (below : node.Laid) (rest : others.Laid) :
    (Branches.cons byte visits true node others).Laid :=
  ⟨fun unlaid => Bool.noConfusion unlaid, below, rest⟩

/-- Between two wildcards of a segment there is a text, and behind it a wildcard. -/
def Route.Grouped : Route → Prop
  | .literal _ next => next.Grouped
  | .paramThen _ next => next.Grouped
  | .crowded _ spelled next => spelled ≠ [] ∧ next.isWildcard = true ∧ next.Grouped
  | _ => True

/-- No remainder stands in front of the end. -/
def Route.whole : Route → Bool
  | .literal _ next => next.whole
  | .paramThen _ next => next.whole
  | .crowded _ _ next => next.whole
  | .stray => false
  | _ => true

/-! ## Adding one entry -/

/-- An insertion adds its entry, or nothing if it fails, as it does for a route that is not
whole. -/
def Adds (whole : Bool) (entry : Entry α) (before after : List (Entry α)) :
    Option InsertFault → Prop
  | none => whole = true ∧ after.Perm (entry :: before)
  | some _ => after.Perm before

section Adds

variable {whole : Bool} {entry : Entry α} {before after : List (Entry α)}
  {fault : Option InsertFault}

theorem Adds.behind (front : List Place) (adds : Adds whole entry before after fault) :
    Adds whole (entry.behind front) (before.map (Entry.behind front))
      (after.map (Entry.behind front)) fault := by
  cases fault with
  | none => exact ⟨adds.1, adds.2.map (Entry.behind front)⟩
  | some cause => exact adds.map (Entry.behind front)

theorem Adds.append (adds : Adds whole entry before after fault) (others : List (Entry α)) :
    Adds whole entry (before ++ others) (after ++ others) fault := by
  cases fault with
  | none => exact ⟨adds.1, adds.2.append_right others⟩
  | some cause => exact adds.append_right others

theorem Adds.prepend (others : List (Entry α)) (adds : Adds whole entry before after fault) :
    Adds whole entry (others ++ before) (others ++ after) fault := by
  cases fault with
  | none => exact ⟨adds.1, (adds.2.append_left others).trans List.perm_middle⟩
  | some cause => exact adds.append_left others

theorem Adds.of_perm {further : List (Entry α)} (same : further.Perm after)
    (adds : Adds whole entry before after fault) : Adds whole entry before further fault := by
  cases fault with
  | none => exact ⟨adds.1, same.trans adds.2⟩
  | some cause => exact same.trans adds

/-- What is added to nothing is the entry alone. -/
theorem Adds.new (entry : Entry α) : Adds true entry [] [entry] none :=
  ⟨rfl, List.Perm.refl _⟩

theorem Adds.unchanged (whole : Bool) (entry : Entry α) (before : List (Entry α))
    (cause : InsertFault) : Adds whole entry before before (some cause) :=
  List.Perm.refl before

end Adds

/-! ## New nodes -/

theorem Node.laid_stub (route : Route) : (Node.stub route : Node α).Laid := by
  cases route with
  | literal byte next => exact ⟨⟨fun _ => rfl, Node.laid_empty, trivial⟩, trivial⟩
  | _ => exact Node.laid_empty

theorem Node.entries_stub (route : Route) : (Node.stub route : Node α).entries = [] := by
  cases route <;> rfl

/-- What was carried along stays what it is, wherever it ends up. -/
def Leaf.Carried (carried : Option (Leaf α)) (kept : List (Entry α)) : Prop :=
  ∀ entry ∈ kept, ∃ leaf, carried = some leaf ∧ entry.names = leaf.params ∧
    entry.value = leaf.value

theorem Leaf.carried_none {kept : List (Entry α)} (carried : Leaf.Carried none kept) :
    kept = [] := by
  apply List.eq_nil_iff_forall_not_mem.mpr
  intro entry member
  obtain ⟨_, impossible, _⟩ := carried entry member
  cases impossible

theorem Leaf.carried_entries (carried : Option (Leaf α)) :
    Leaf.Carried carried (Leaf.entries .stop carried) := by
  intro entry member
  cases carried with
  | none => exact absurd member List.not_mem_nil
  | some leaf =>
      rw [List.mem_singleton.mp member]
      exact ⟨leaf, rfl, List.append_nil _, rfl⟩

/-- The nodes laid down for a route hold its entry, and what was carried along or nothing. -/
theorem Node.sprout_adds (leaf : Leaf α) {route : Route} (carried : Option (Leaf α))
    (visits : Nat) {grown : Grown (Node α)}
    (laid : Node.sprout? leaf carried visits route = some grown) :
    grown.part.Laid ∧ ∃ kept, Leaf.Carried carried kept ∧
      Adds route.whole (leaf.entryAt route) kept grown.part.entries grown.fault := by
  induction route generalizing carried visits grown with
  | stop =>
      cases laid
      exact ⟨⟨trivial, trivial⟩, [], fun _ member => absurd member List.not_mem_nil, Adds.new _⟩
  | literal byte next inductionHypothesis =>
      simp only [Node.sprout?] at laid
      obtain ⟨inner, laidInner, rfl⟩ := Option.map_eq_some_iff.mp laid
      obtain ⟨below, kept, same, adds⟩ := inductionHypothesis carried visits laidInner
      refine ⟨⟨Branches.laid_cons _ _ below trivial, trivial⟩,
        kept.map (Entry.behind [.literal byte]), ?_, ?_⟩
      · intro entry member
        obtain ⟨inside, memberInside, rfl⟩ := List.mem_map.mp member
        exact same inside memberInside
      · simpa [Node.entries, Branches.entries, Wild.entries, Route.whole] using
          adds.behind [.literal byte]
  | param =>
      cases laid
      refine ⟨⟨trivial, trivial⟩, _, Leaf.carried_entries carried, ?_⟩
      have own := (Adds.new (leaf.entryAt .param)).prepend (Leaf.entries .stop carried)
      simpa [Node.entries, Branches.entries, Wild.entries, Tails.entries, Route.whole] using own
  | paramThen suffix next inductionHypothesis =>
      cases laid
      have tail : let grown :=
            (Node.sprout? leaf none 1 next).getD ⟨Node.stub next, some .misplacedRest⟩
          grown.part.Laid ∧
            Adds next.whole (leaf.entryAt next) [] grown.part.entries grown.fault := by
        cases laidTail : Node.sprout? leaf none 1 next with
        | none =>
            refine ⟨Node.laid_stub next, ?_⟩
            simp only [Option.getD_none, Node.entries_stub]
            exact Adds.unchanged _ _ _ _
        | some inner =>
            obtain ⟨below, kept, nothing, adds⟩ := inductionHypothesis none 1 laidTail
            rw [Leaf.carried_none nothing] at adds
            exact ⟨below, adds⟩
      refine ⟨⟨trivial, tail.1, trivial⟩, _, Leaf.carried_entries carried, ?_⟩
      have own := (tail.2.behind (.param :: suffix.map .literal)).prepend
        (Leaf.entries .stop carried)
      simpa [Node.entries, Branches.entries, Wild.entries, Tails.entries, Route.whole] using own
  | remainder name =>
      cases laid
      refine ⟨⟨trivial, trivial⟩, _, Leaf.carried_entries carried, ?_⟩
      have own := (Adds.new (leaf.entryAt (.remainder name))).prepend
        (Leaf.entries .stop carried)
      simpa [Node.entries, Branches.entries, Wild.entries, Route.whole] using own
  | crowded lead spelled next _ =>
      cases laid
      refine ⟨⟨trivial, trivial⟩, _, Leaf.carried_entries carried, ?_⟩
      simpa [Node.entries, Branches.entries, Wild.entries] using Adds.unchanged _ _ _ _
  | stray => cases laid

theorem Node.sproutTail_adds (leaf : Leaf α) (route : Route) :
    let grown := Node.sproutTail leaf route
    grown.part.Laid ∧ Adds route.whole (leaf.entryAt route) [] grown.part.entries grown.fault := by
  rw [Node.sproutTail]
  cases laid : Node.sprout? leaf none 1 route with
  | none =>
      refine ⟨Node.laid_stub route, ?_⟩
      simp only [Option.getD_none, Node.entries_stub]
      exact Adds.unchanged _ _ _ _
  | some grown =>
      obtain ⟨below, kept, nothing, adds⟩ := Node.sprout_adds leaf none 1 laid
      rw [Leaf.carried_none nothing] at adds
      exact ⟨below, adds⟩

theorem Node.sproutBranch_adds (leaf : Leaf α) (route : Route) :
    let grown := Node.sproutBranch leaf route
    (grown.part.1 = false → grown.part.2 = Node.empty) ∧ grown.part.2.Laid ∧
      Adds route.whole (leaf.entryAt route) [] grown.part.2.entries grown.fault := by
  rw [Node.sproutBranch]
  cases laid : Node.sprout? leaf none 1 route with
  | none => exact ⟨fun _ => rfl, Node.laid_empty, Adds.unchanged _ _ _ _⟩
  | some grown =>
      obtain ⟨below, kept, nothing, adds⟩ := Node.sprout_adds leaf none 1 laid
      rw [Leaf.carried_none nothing] at adds
      exact ⟨fun unlaid => Bool.noConfusion unlaid, below, adds⟩

/-- The wildcard child that a route lays down where there is none. -/
theorem Wild.sprout_adds (leaf : Leaf α) {route : Route} (wildcard : route.isWildcard = true) :
    let grown := Wild.sprout leaf route
    grown.part.Laid ∧ Adds route.whole (leaf.entryAt route) [] grown.part.entries grown.fault := by
  rw [Wild.sprout]
  cases laid : Node.sprout? leaf none 1 route with
  | none => exact ⟨trivial, Adds.unchanged _ _ _ _⟩
  | some grown =>
      obtain ⟨below, kept, nothing, adds⟩ := Node.sprout_adds leaf none 1 laid
      obtain ⟨wild, bare⟩ : ∃ wild, grown.part = .mk none .nil wild := by
        cases route with
        | stop => cases wildcard
        | literal byte next => cases wildcard
        | stray => cases laid
        | _ =>
            cases laid
            exact ⟨_, rfl⟩
      rw [Leaf.carried_none nothing] at adds
      obtain ⟨part, fault⟩ := grown
      subst bare
      exact ⟨below.2, adds⟩

/-! ## Keeping children in order -/

theorem Branches.laid_settle {byte : UInt8} {visits : Nat} {laid : Bool} {node : Node α}
    {others : Branches α} (below : (Branches.cons byte visits laid node others).Laid) :
    (others.settle byte visits laid node).Laid := by
  cases others with
  | nil => exact below
  | cons first count known sibling rest =>
      obtain ⟨own, inside, ownFirst, insideFirst, further⟩ := below
      rw [Branches.settle]
      split
      · exact ⟨ownFirst, insideFirst, own, inside, further⟩
      · exact ⟨own, inside, ownFirst, insideFirst, further⟩

theorem Branches.entries_settle (byte : UInt8) (visits : Nat) (laid : Bool) (node : Node α)
    (others : Branches α) :
    (others.settle byte visits laid node).entries.Perm
      (Branches.cons byte visits laid node others).entries := by
  cases others with
  | nil => exact List.Perm.refl _
  | cons first count known sibling rest =>
      rw [Branches.settle]
      split
      · exact List.perm_append_comm_assoc _ _ _
      · exact List.Perm.refl _

theorem Tails.laid_putAt {suffix : Bytes} {node : Node α} (below : node.Laid) (place : Nat)
    {tails : Tails α} (laid : tails.Laid) : (tails.putAt suffix node place).Laid := by
  induction place generalizing tails with
  | zero => exact ⟨below, laid⟩
  | succ place inductionHypothesis =>
      cases tails with
      | nil => exact ⟨below, trivial⟩
      | cons other sibling others => exact ⟨laid.1, inductionHypothesis laid.2⟩

theorem Tails.entries_putAt (suffix : Bytes) (node : Node α) (place : Nat) (tails : Tails α) :
    (tails.putAt suffix node place).entries.Perm (Tails.cons suffix node tails).entries := by
  induction place generalizing tails with
  | zero => exact List.Perm.refl _
  | succ place inductionHypothesis =>
      cases tails with
      | nil => exact List.Perm.refl _
      | cons other sibling others =>
          have further := (inductionHypothesis others).append_left
            (sibling.entries.map (Entry.behind (.param :: other.map .literal)))
          exact further.trans (List.perm_append_comm_assoc _ _ _)

/-! ## Cutting a tail -/

theorem Node.laid_behind {node : Node α} (below : node.Laid) (text : Bytes) :
    (node.behind text).Laid := by
  induction text with
  | nil => exact below
  | cons byte rest inductionHypothesis =>
      exact ⟨Branches.laid_cons _ _ inductionHypothesis trivial, trivial⟩

theorem Node.entries_behind (node : Node α) (text : Bytes) :
    (node.behind text).entries = node.entries.map (Entry.behind (text.map .literal)) := by
  induction text with
  | nil => exact (List.map_id' _).symm
  | cons byte rest inductionHypothesis =>
      have further : (node.behind (byte :: rest)).entries =
          (node.behind rest).entries.map (Entry.behind [.literal byte]) := by
        simp [Node.behind, Node.entries, Branches.entries, Wild.entries]
      rw [further, inductionHypothesis, List.map_map]
      apply List.map_congr_left
      intro entry _
      exact Entry.behind_behind [.literal byte] (rest.map .literal) entry

/-- A tail is cut between its literals, and a wildcard is put in at the cut. -/
theorem Node.entries_cut {node : Node α} {spelled : Bytes} (filled : spelled ≠ [])
    (wild : Wild α) :
    ((node.behind spelled).withWild wild).entries =
      node.entries.map (Entry.behind (spelled.map .literal)) ++ wild.entries := by
  rw [← Node.entries_behind]
  obtain ⟨byte, rest, rfl⟩ := List.exists_cons_of_ne_nil filled
  simp [Node.behind, Node.withWild, Node.entries, Wild.entries]

theorem Node.laid_cut {node : Node α} (below : node.Laid) {spelled : Bytes}
    (filled : spelled ≠ []) {wild : Wild α} (beside : wild.Laid) :
    ((node.behind spelled).withWild wild).Laid := by
  have behind := Node.laid_behind below spelled
  obtain ⟨byte, rest, rfl⟩ := List.exists_cons_of_ne_nil filled
  exact ⟨behind.1, beside⟩

theorem Tails.cut_adds (leaf : Leaf α) (lead : Bytes) {spelled : Bytes} (filled : spelled ≠ [])
    {next : Route} (wildcard : next.isWildcard = true) {tails : Tails α} (laid : tails.Laid) :
    let grown := tails.cut leaf lead spelled next
    grown.part.Laid ∧
      Adds next.whole (leaf.entryAt (.crowded lead spelled next)) tails.entries grown.part.entries
        grown.fault := by
  cases tails with
  | nil => exact ⟨trivial, Adds.unchanged _ _ _ _⟩
  | cons own node others =>
      simp only [Tails.cut]
      by_cases literal : own = lead ++ spelled
      · subst literal
        obtain ⟨beside, adds⟩ := Wild.sprout_adds leaf wildcard
        rw [if_pos rfl]
        simp only [Grown.part_map, Grown.fault_map]
        refine ⟨⟨Node.laid_cut laid.1 filled beside, laid.2⟩, ?_⟩
        have front : ∀ entry : Entry α,
            (entry.behind (spelled.map .literal)).behind (.param :: lead.map .literal) =
              entry.behind (.param :: (lead ++ spelled).map .literal) := by
          intro entry
          rw [Entry.behind_behind, List.map_append, List.cons_append]
        have here := ((adds.behind (.param :: lead.map .literal)).prepend
          (node.entries.map (Entry.behind (.param :: (lead ++ spelled).map .literal)))).append
          others.entries
        simpa [Tails.entries, Node.entries_cut filled, Function.comp_def, front] using here
      · obtain ⟨below, adds⟩ := Tails.cut_adds leaf lead filled wildcard laid.2
        rw [if_neg literal]
        exact ⟨⟨laid.1, below⟩, adds.prepend _⟩

/-! ## Insertion -/

theorem Tails.has_cons {suffix own : Bytes} {node : Node α} {others : Tails α}
    (has : (Tails.cons own node others).has suffix = true) (different : own ≠ suffix) :
    others.has suffix = true := by
  simpa [Tails.has, different] using has

mutual
theorem Node.insert_adds (leaf : Leaf α) {node : Node α} (laid : node.Laid) (trail : Trail)
    {route : Route} (grouped : route.Grouped) :
    let grown := node.insert leaf trail route
    grown.part.Laid ∧
      Adds route.whole (leaf.entryAt route) node.entries grown.part.entries grown.fault := by
  cases node with
  | mk own branches wild =>
      obtain ⟨below, beside⟩ := laid
      have onWild : route.isWildcard = true →
          (Node.mk own branches (wild.insert leaf trail route).part).Laid ∧
            Adds route.whole (leaf.entryAt route) (Node.mk own branches wild).entries
              (Node.mk own branches (wild.insert leaf trail route).part).entries
              (wild.insert leaf trail route).fault := by
        intro wildcard
        obtain ⟨laidWild, adds⟩ := Wild.insert_adds leaf beside trail wildcard grouped
        exact ⟨⟨below, laidWild⟩, (adds.prepend _).prepend _⟩
      cases route with
      | stop =>
          cases own with
          | some bound => exact ⟨⟨below, beside⟩, Adds.unchanged _ _ _ _⟩
          | none => exact ⟨⟨below, beside⟩, rfl, List.Perm.refl _⟩
      | literal byte next =>
          have groupedNext : next.Grouped := grouped
          obtain ⟨laidBelow, adds⟩ := Branches.insert_adds leaf below trail byte groupedNext
          exact ⟨⟨laidBelow, beside⟩, (adds.append _).prepend _⟩
      | param => exact onWild rfl
      | paramThen suffix next => exact onWild rfl
      | remainder name => exact onWild rfl
      | crowded lead spelled next => exact onWild rfl
      | stray => exact onWild rfl

theorem Branches.insert_adds (leaf : Leaf α) {branches : Branches α} (laid : branches.Laid)
    (trail : Trail) (byte : UInt8) {route : Route} (grouped : route.Grouped) :
    let grown := branches.insert leaf trail byte route
    grown.part.Laid ∧
      Adds route.whole (leaf.entryAt (.literal byte route)) branches.entries grown.part.entries
        grown.fault := by
  cases branches with
  | nil =>
      obtain ⟨known, below, adds⟩ := Node.sproutBranch_adds leaf route
      refine ⟨⟨known, below, trivial⟩, ?_⟩
      simpa [Branches.insert, Branches.entries] using adds.behind [.literal byte]
  | cons own visits known node others =>
      obtain ⟨bare, below, rest⟩ := laid
      simp only [Branches.insert]
      by_cases same : own = byte
      · subst same
        rw [if_pos rfl]
        cases known with
        | true =>
            obtain ⟨laidNode, adds⟩ := Node.insert_adds leaf below (trail.byte own) grouped
            exact ⟨Branches.laid_cons _ _ laidNode rest, (adds.behind [.literal own]).append _⟩
        | false =>
            obtain ⟨knownNow, laidNode, adds⟩ := Node.sproutBranch_adds leaf route
            have nothing : node = Node.empty := bare rfl
            subst nothing
            exact ⟨⟨knownNow, laidNode, rest⟩, (adds.behind [.literal own]).append _⟩
      · obtain ⟨laidOthers, adds⟩ := Branches.insert_adds leaf rest trail byte grouped
        rw [if_neg same]
        refine ⟨Branches.laid_settle ⟨bare, below, laidOthers⟩, ?_⟩
        exact (adds.prepend _).of_perm (Branches.entries_settle own visits known node _)

theorem Wild.insert_adds (leaf : Leaf α) {wild : Wild α} (laid : wild.Laid) (trail : Trail)
    {route : Route} (wildcard : route.isWildcard = true) (grouped : route.Grouped) :
    let grown := wild.insert leaf trail route
    grown.part.Laid ∧
      Adds route.whole (leaf.entryAt route) wild.entries grown.part.entries grown.fault := by
  cases wild with
  | absent => exact Wild.sprout_adds leaf wildcard
  | remainder name bound => exact ⟨trivial, Adds.unchanged _ _ _ _⟩
  | param own tails =>
      cases route with
      | stop => cases wildcard
      | literal byte next => cases wildcard
      | stray => exact ⟨laid, Adds.unchanged _ _ _ _⟩
      | remainder name => exact ⟨laid, Adds.unchanged _ _ _ _⟩
      | param =>
          cases own with
          | some bound => exact ⟨laid, Adds.unchanged _ _ _ _⟩
          | none => exact ⟨laid, rfl, List.Perm.refl _⟩
      | crowded lead spelled next =>
          obtain ⟨filled, wildcardNext, _⟩ := grouped
          obtain ⟨below, adds⟩ := Tails.cut_adds leaf lead filled wildcardNext laid
          exact ⟨below, adds.prepend _⟩
      | paramThen suffix next =>
          simp only [Wild.insert]
          by_cases has : tails.has suffix = true
          · have groupedNext : next.Grouped := grouped
            obtain ⟨below, adds⟩ := Tails.insert_adds leaf laid trail.param has groupedNext
            rw [if_pos has]
            exact ⟨below, adds.prepend _⟩
          · obtain ⟨below, adds⟩ := Node.sproutTail_adds leaf next
            rw [if_neg has]
            have own := (adds.behind (.param :: suffix.map .literal)).append tails.entries
            have placed := Tails.entries_putAt suffix (Node.sproutTail leaf next).part
              (Tails.placeFor suffix.length tails.lengths) tails
            exact ⟨Tails.laid_putAt below _ laid, (own.of_perm placed).prepend _⟩

theorem Tails.insert_adds (leaf : Leaf α) {tails : Tails α} (laid : tails.Laid) (trail : Trail)
    {suffix : Bytes} {route : Route} (has : tails.has suffix = true) (grouped : route.Grouped) :
    let grown := tails.insert leaf trail suffix route
    grown.part.Laid ∧
      Adds route.whole (leaf.entryAt (.paramThen suffix route)) tails.entries grown.part.entries
        grown.fault := by
  cases tails with
  | nil => cases has
  | cons own node others =>
      simp only [Tails.insert]
      by_cases same : own = suffix
      · subst same
        obtain ⟨below, adds⟩ := Node.insert_adds leaf laid.1 (trail.bytes own) grouped
        rw [if_pos rfl]
        exact ⟨⟨below, laid.2⟩, (adds.behind (.param :: own.map .literal)).append _⟩
      · obtain ⟨below, adds⟩ :=
          Tails.insert_adds leaf laid.2 trail (Tails.has_cons has same) grouped
        rw [if_neg same]
        exact ⟨⟨laid.1, below⟩, adds.prepend _⟩
end

/-! ## Search -/

/-- A capture comes from one of these entries. -/
def Capture.From (entries : List (Entry α)) (capture : Capture α) : Prop :=
  ∃ entry ∈ entries, entry.names = capture.names ∧ entry.value = capture.value

theorem Capture.From.mono {entries more : List (Entry α)} {capture : Capture α}
    (included : entries ⊆ more) (origin : capture.From entries) : capture.From more := by
  obtain ⟨entry, member, names, value⟩ := origin
  exact ⟨entry, included member, names, value⟩

theorem Capture.From.behind {entries : List (Entry α)} {capture : Capture α}
    (front : List Place) (origin : capture.From entries) :
    capture.From (entries.map (Entry.behind front)) := by
  obtain ⟨entry, member, names, value⟩ := origin
  exact ⟨entry.behind front, List.mem_map_of_mem member, names, value⟩

theorem Leaf.capture_from (leaf : Leaf α) (values : List Bytes) {route : Route}
    (unnamed : route.lastName = []) :
    Capture.From (Leaf.entries route (some leaf)) ⟨leaf.value, leaf.params, values⟩ := by
  refine ⟨leaf.entryAt route, List.mem_cons_self, ?_, rfl⟩
  rw [entryAt, unnamed, List.append_nil]

mutual
/-- A search finds one of the entries of the tree. -/
theorem Node.find_from {node : Node α} {path : Bytes} {capture : Capture α}
    (found : node.find path = some capture) : capture.From node.entries := by
  cases node with
  | mk leaf branches wild =>
      cases path with
      | nil =>
          rw [Node.find] at found
          obtain ⟨own, rfl, rfl⟩ := Option.map_eq_some_iff.mp found
          exact (own.capture_from [] rfl).mono (List.subset_append_left _ _)
      | cons byte rest =>
          rw [Node.find] at found
          split at found
          · rename_i literal below
            cases found
            have origin := Branches.find_from below
            refine origin.mono ?_
            exact List.subset_append_of_subset_right _ (List.subset_append_left _ _)
          · have origin := Wild.find_from found
            refine origin.mono ?_
            exact List.subset_append_of_subset_right _ (List.subset_append_right _ _)

theorem Branches.find_from {branches : Branches α} {byte : UInt8} {path : Bytes}
    {capture : Capture α} (found : branches.find byte path = some capture) :
    capture.From branches.entries := by
  cases branches with
  | nil => cases found
  | cons own visits laid node others =>
      rw [Branches.find] at found
      split at found
      · exact ((Node.find_from found).behind [.literal own]).mono (List.subset_append_left _ _)
      · exact (Branches.find_from found).mono (List.subset_append_right _ _)

theorem Wild.find_from {wild : Wild α} {path : Bytes} {capture : Capture α}
    (found : wild.find path = some capture) : capture.From wild.entries := by
  cases wild with
  | absent => cases found
  | remainder name leaf =>
      rw [Wild.find] at found
      cases found
      exact ⟨_, List.mem_cons_self, rfl, rfl⟩
  | param leaf tails =>
      simp only [Wild.find] at found
      split at found
      · cases found
      · rcases Tails.find_from found with origin | plain
        · exact origin.mono (List.subset_append_right _ _)
        · obtain ⟨own, rfl, rfl⟩ := Option.map_eq_some_iff.mp plain
          exact (own.capture_from _ rfl).mono (List.subset_append_left _ _)
      · rcases Tails.find_from found with origin | impossible
        · exact origin.mono (List.subset_append_right _ _)
        · cases impossible

theorem Tails.find_from {tails : Tails α} {segment after : Bytes}
    {otherwise : Option (Capture α)} {capture : Capture α}
    (found : tails.find segment after otherwise = some capture) :
    capture.From tails.entries ∨ otherwise = some capture := by
  cases tails with
  | nil => exact Or.inr found
  | cons suffix node others =>
      simp only [Tails.find] at found
      split at found
      · obtain ⟨inner, below, rfl⟩ := Option.map_eq_some_iff.mp found
        have origin := (Node.find_from below).behind (.param :: suffix.map .literal)
        exact Or.inl (origin.mono (List.subset_append_left _ _))
      · refine (Tails.find_from found).imp ?_ id
        exact fun origin => origin.mono (List.subset_append_right _ _)
end

/-! ## Whole trees -/

/-- The entry of a pattern that something is bound to. -/
def Pattern.entry (pattern : Pattern) (value : α) : Entry α :=
  Leaf.entryAt ⟨pattern.params, value⟩ pattern.route

/-- What is left of a tree's entries when the tree is laid out afresh.  A leaf at the root
may be lost, or move. -/
def PathTree.Keeps (tree : PathTree α) (kept : List (Entry α)) : Prop :=
  (tree.root.leaf = none → kept = tree.root.entries) ∧
    ∀ entry ∈ kept, ∃ old ∈ tree.root.entries, entry.names = old.names ∧ entry.value = old.value

theorem PathTree.keeps_entries (tree : PathTree α) : tree.Keeps tree.root.entries :=
  ⟨fun _ => rfl, fun entry member => ⟨entry, member, rfl, rfl⟩⟩

/-- A tree takes the entry of a pattern or none at all. -/
theorem PathTree.insert_adds {tree : PathTree α} (laid : tree.root.Laid) {pattern : Pattern}
    (grouped : pattern.route.Grouped) (value : α) :
    let grown := tree.insert pattern value
    grown.part.root.Laid ∧ ∃ kept, tree.Keeps kept ∧
      Adds pattern.route.whole (pattern.entry value) kept grown.part.root.entries
        grown.fault := by
  obtain ⟨attempts, ⟨own, branches, wild⟩⟩ := tree
  have general := Node.insert_adds ⟨pattern.params, value⟩ laid Trail.start grouped
  have whole := PathTree.keeps_entries ⟨attempts, .mk own branches wild⟩
  cases branches with
  | cons byte visits known node others => exact ⟨general.1, _, whole, general.2⟩
  | nil =>
      cases wild with
      | param leaf tails => exact ⟨general.1, _, whole, general.2⟩
      | remainder name leaf => exact ⟨general.1, _, whole, general.2⟩
      | absent =>
          simp only [PathTree.insert, Grown.part_map, Grown.fault_map]
          cases sprouted : Node.sprout? ⟨pattern.params, value⟩ own (attempts + 1)
              pattern.route with
          | none => exact ⟨laid, _, whole, Adds.unchanged _ _ _ _⟩
          | some grown =>
              obtain ⟨below, kept, carried, adds⟩ := Node.sprout_adds _ own _ sprouted
              refine ⟨below, kept, ⟨?_, ?_⟩, adds⟩
              · intro bare
                have nothing : own = none := bare
                subst nothing
                exact Leaf.carried_none carried
              · intro entry member
                obtain ⟨leaf, rfl, names, same⟩ := carried entry member
                refine ⟨leaf.entryAt .stop, List.mem_cons_self, ?_, same⟩
                exact names.trans (List.append_nil _).symm

/-- Only a pattern without any text ends at the root. -/
theorem PathTree.leaf_insert {tree : PathTree α} (unended : tree.root.leaf = none)
    {pattern : Pattern} {byte : UInt8} {next : Route} (begins : pattern.route = .literal byte next)
    (value : α) : (tree.insert pattern value).part.root.leaf = none := by
  obtain ⟨attempts, ⟨own, branches, wild⟩⟩ := tree
  have bare : own = none := unended
  subst bare
  have general : ((Node.mk none branches wild).insert ⟨pattern.params, value⟩ Trail.start
      pattern.route).part.leaf = none := by
    rw [begins]
    rfl
  cases branches with
  | cons byte visits known node others => exact general
  | nil =>
      cases wild with
      | param leaf tails => exact general
      | remainder name leaf => exact general
      | absent =>
          simp only [PathTree.insert, Grown.part_map, begins, Node.sprout?]
          cases Node.sprout? (⟨pattern.params, value⟩ : Leaf α) none (attempts + 1) next <;> rfl

end FunctionGateway.Routing
