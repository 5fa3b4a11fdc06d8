import FunctionGateway.Proofs.Routing.Growth

/-!
# What an insertion does

One insertion binds its route, which was free, and nothing else, or it binds nothing.  Either
way the tree still stems from what was tried.  An insertion fails only for cause: two
wildcards in a segment, a misplaced remainder, or a clash with a route that was
tried before.

One kind of insertion is left out, that of a route with two wildcards in a segment that a tree
takes for the text of one of its tails.
-/

namespace FunctionGateway.Routing

open FunctionGateway.Text

variable {α : Type}

/-- What an insertion of `route` may make of what is bound, given its fault. -/
def Grows (tried : Route → Prop) (leaf : Leaf α) (route : Route)
    (before after : Route → Option (Leaf α)) : Option InsertFault → Prop
  | none =>
      route.plain = true ∧ before route = none ∧
        ∀ other, after other = if other = route then some leaf else before other
  | some _ =>
      (route.plain = false ∨ ∃ other, tried other ∧ route.clashes other = true) ∧
        ∀ other, after other = before other

/-- What was tried after one more route. -/
def Also (tried : Route → Prop) (route : Route) (other : Route) : Prop :=
  tried other ∨ other = route

theorem also_mono {tried : Route → Prop} (route other : Route) (asked : tried other) :
    Also tried route other :=
  Or.inl asked

section Lifting

variable {tried below : Route → Prop} {leaf : Leaf α} {next : Route}
  {before after innerBefore innerAfter : Route → Option (Leaf α)} {fault : Option InsertFault}

/-- What happens behind a first step, seen from in front of it. -/
theorem Grows.lift (wrap : Route → Route)
    (injective : ∀ first second, wrap first = wrap second → first = second)
    (plain : (wrap next).plain = next.plain)
    (clash : ∀ other, next.clashes other = true → (wrap next).clashes (wrap other) = true)
    (grows : Grows (fun later => tried (wrap later)) leaf next innerBefore innerAfter fault)
    (onBefore : ∀ later, before (wrap later) = innerBefore later)
    (onAfter : ∀ later, after (wrap later) = innerAfter later)
    (elsewhere : ∀ other, (∀ later, other ≠ wrap later) → after other = before other) :
    Grows tried leaf (wrap next) before after fault := by
  cases fault with
  | none =>
      obtain ⟨regular, free, bound⟩ := grows
      refine ⟨plain.trans regular, (onBefore next).trans free, fun other => ?_⟩
      by_cases inside : ∃ later, other = wrap later
      · obtain ⟨later, rfl⟩ := inside
        rw [onAfter, onBefore, bound]
        by_cases same : later = next
        · rw [if_pos same, if_pos (congrArg wrap same)]
        · rw [if_neg same, if_neg fun equal => same (injective _ _ equal)]
      · have outside : ∀ later, other ≠ wrap later := fun later same => inside ⟨later, same⟩
        rw [if_neg (outside next), elsewhere other outside]
  | some cause =>
      obtain ⟨reason, same⟩ := grows
      refine ⟨?_, fun other => ?_⟩
      · rcases reason with irregular | ⟨later, asked, clashing⟩
        · exact Or.inl (plain.trans irregular)
        · exact Or.inr ⟨wrap later, asked, clash later clashing⟩
      · by_cases inside : ∃ later, other = wrap later
        · obtain ⟨later, rfl⟩ := inside
          rw [onAfter, onBefore, same]
        · exact elsewhere other fun later equal => inside ⟨later, equal⟩

theorem Grows.literal (byte : UInt8)
    (grows : Grows (fun later => tried (.literal byte later)) leaf next innerBefore innerAfter
      fault)
    (onBefore : ∀ later, before (.literal byte later) = innerBefore later)
    (onAfter : ∀ later, after (.literal byte later) = innerAfter later)
    (elsewhere : ∀ other, (∀ later, other ≠ .literal byte later) → after other = before other) :
    Grows tried leaf (.literal byte next) before after fault :=
  grows.lift (.literal byte) (fun _ _ same => (Route.literal.inj same).2) rfl
    (fun other clash => by simp [Route.clashes, clash]) onBefore onAfter elsewhere

theorem Grows.paramThen (suffix : Bytes)
    (grows : Grows (fun later => tried (.paramThen suffix later)) leaf next innerBefore
      innerAfter fault)
    (onBefore : ∀ later, before (.paramThen suffix later) = innerBefore later)
    (onAfter : ∀ later, after (.paramThen suffix later) = innerAfter later)
    (elsewhere : ∀ other, (∀ later, other ≠ .paramThen suffix later) →
      after other = before other) :
    Grows tried leaf (.paramThen suffix next) before after fault :=
  grows.lift (.paramThen suffix) (fun _ _ same => (Route.paramThen.inj same).2) rfl
    (fun other clash => by simp [Route.clashes, clash]) onBefore onAfter elsewhere

end Lifting

/-! ## New nodes -/

theorem Node.bound_empty (route : Route) : (Node.empty : Node α).bound route = none := by
  cases route <;> rfl

theorem Node.stems_empty (tried : Route → Prop) : (Node.empty : Node α).Stems tried :=
  ⟨nofun, trivial, trivial⟩

theorem Node.bound_stub (route other : Route) : (Node.stub route : Node α).bound other = none := by
  cases route with
  | literal byte next =>
      cases other with
      | literal asked later =>
          simp only [Node.stub, Node.bound, Branches.bound, Node.bound_empty, ite_self]
      | _ => rfl
  | _ => exact Node.bound_empty other

theorem Node.stems_stub (tried : Route → Prop) (route : Route) :
    (Node.stub route : Node α).Stems tried := by
  cases route with
  | literal byte next =>
      exact ⟨nofun,
        ⟨fun _ => rfl, Node.stems_empty _, List.not_mem_nil, trivial⟩, trivial⟩
  | _ => exact Node.stems_empty tried

/-- What a part of a tree laid down for one route has to be like. -/
def Sprouted (leaf : Leaf α) (route : Route) (view : Route → Option (Leaf α))
    (fault : Option InsertFault) : Prop :=
  Grows (fun _ => False) leaf route (fun _ => none) view fault

theorem Sprouted.grows {tried : Route → Prop} {leaf : Leaf α} {route : Route}
    {view : Route → Option (Leaf α)} {fault : Option InsertFault}
    (sprouted : Sprouted leaf route view fault) (before : Route → Option (Leaf α))
    (free : ∀ other, before other = none) :
    Grows tried leaf route before view fault := by
  cases fault with
  | none =>
      obtain ⟨plain, _, bound⟩ := sprouted
      exact ⟨plain, free route, fun other => by rw [bound, free]⟩
  | some cause =>
      obtain ⟨reason, same⟩ := sprouted
      refine ⟨Or.inl (reason.resolve_right ?_), fun other => by rw [same, free]⟩
      rintro ⟨_, impossible, _⟩
      exact impossible

/-- A node with nothing but a wildcard child binds what that one binds. -/
theorem Node.bound_bare (wild : Wild α) (route : Route) :
    (Node.mk none .nil wild).bound route = wild.bound route := by
  cases route with
  | stop => exact (Wild.bound_of_not_wildcard rfl).symm
  | literal byte next => exact (Wild.bound_of_not_wildcard rfl).symm
  | _ => rfl

/-- The nodes laid down for a route, if there are any, bind it and nothing else; if there are
none, the route is not regular. -/
def Node.Lays (leaf : Leaf α) (route : Route) : Option (Grown (Node α)) → Prop
  | some grown => grown.part.Stems (· = route) ∧ Sprouted leaf route grown.part.bound grown.fault
  | none => route.plain = false

theorem Node.Lays.tail {leaf : Leaf α} {route : Route} {laid : Option (Grown (Node α))}
    (lays : Node.Lays leaf route laid) :
    let grown := laid.getD ⟨Node.stub route, some .misplacedRest⟩
    grown.part.Stems (· = route) ∧ Sprouted leaf route grown.part.bound grown.fault := by
  cases laid with
  | some grown => exact lays
  | none => exact ⟨Node.stems_stub _ route, Or.inl lays, Node.bound_stub route⟩

theorem Wild.param_tail_grows {tried : Route → Prop} {leaf : Leaf α} {suffix : Bytes}
    {next : Route} {own : Option (Leaf α)} {before after : Tails α} {fault : Option InsertFault}
    (grows : Grows (fun later => tried (.paramThen suffix later)) leaf next
      (before.bound suffix) (after.bound suffix) fault)
    (elsewhere : ∀ other later,
      other ≠ suffix → after.bound other later = before.bound other later) :
    Grows tried leaf (.paramThen suffix next) (Wild.param own before).bound
      (Wild.param own after).bound fault := by
  refine Grows.paramThen suffix grows (fun _ => rfl) (fun _ => rfl) (fun other outside => ?_)
  cases other with
  | paramThen asked later =>
      exact elsewhere asked later fun same => outside later (by rw [same])
  | _ => rfl

theorem Node.sprouts (leaf : Leaf α) (route : Route) (visits : Nat) :
    Node.Lays leaf route (Node.sprout? leaf none visits route) := by
  induction route generalizing visits with
  | stop =>
      refine ⟨⟨fun _ => rfl, trivial, trivial⟩, rfl, rfl, fun other => ?_⟩
      cases other <;> rfl
  | literal byte next inductionHypothesis =>
      have behind := inductionHypothesis visits
      simp only [Node.sprout?]
      cases laid : Node.sprout? leaf none visits next with
      | none =>
          rw [laid] at behind
          exact behind
      | some grown =>
          rw [laid] at behind
          obtain ⟨stems, sprouted⟩ := behind
          refine ⟨⟨nofun, ⟨nofun, ?_, List.not_mem_nil, trivial⟩, trivial⟩, ?_⟩
          · exact stems.mono fun later same => congrArg (Route.literal byte) same
          · refine Grows.literal byte (sprouted.grows (fun _ => none) fun _ => rfl)
              (fun _ => rfl) (fun later => ?_) (fun other outside => ?_)
            · simp [Node.bound, Branches.bound]
            · cases other with
              | literal asked later =>
                  have different : byte ≠ asked := fun same => outside later (by rw [same])
                  simp [Node.bound, Branches.bound, different]
              | _ => rfl
  | param =>
      refine ⟨⟨nofun, trivial, fun _ => rfl, nofun, List.Pairwise.nil, trivial⟩, rfl, rfl,
        fun other => ?_⟩
      cases other <;> rfl
  | paramThen suffix next inductionHypothesis =>
      obtain ⟨stems, sprouted⟩ := (inductionHypothesis 1).tail
      refine ⟨⟨nofun, trivial, nofun, fun _ => List.cons_ne_nil _ _,
        List.pairwise_singleton _ _, ⟨next, rfl⟩, ?_, trivial⟩, ?_⟩
      · exact stems.mono fun later same => congrArg (Route.paramThen suffix) same
      · refine Grows.paramThen suffix (sprouted.grows (fun _ => none) fun _ => rfl)
          (fun _ => rfl) (fun later => ?_) (fun other outside => ?_)
        · simp [Node.bound, Wild.bound, Tails.bound]
        · cases other with
          | paramThen asked later =>
              have different : suffix ≠ asked := fun same => outside later (by rw [same])
              simp [Node.bound, Wild.bound, Tails.bound, different]
          | _ => rfl
  | remainder name =>
      refine ⟨⟨nofun, trivial, rfl⟩, rfl, rfl, fun other => ?_⟩
      cases other with
      | remainder asked =>
          simp only [Node.bound, Wild.bound, Route.remainder.injEq, eq_comm]
      | _ => rfl
  | crowded lead spelled next _ =>
      refine ⟨⟨nofun, trivial, trivial⟩, Or.inl rfl, fun other => ?_⟩
      cases other <;> rfl
  | stray => rfl

/-- The node behind the new tail of a route. -/
theorem Node.sproutTail_grows (leaf : Leaf α) (route : Route) :
    (Node.sproutTail leaf route).part.Stems (· = route) ∧
      Sprouted leaf route (Node.sproutTail leaf route).part.bound
        (Node.sproutTail leaf route).fault :=
  (Node.sprouts leaf route 1).tail

theorem Node.bare_of_wildcard {leaf : Leaf α} {route : Route} {visits : Nat}
    {grown : Grown (Node α)} (wildcard : route.isWildcard = true)
    (laid : Node.sprout? leaf none visits route = some grown) :
    ∃ wild, grown.part = .mk none .nil wild := by
  cases route with
  | stop => exact nomatch wildcard
  | literal byte next => exact nomatch wildcard
  | stray => exact nomatch laid
  | _ =>
      cases laid
      exact ⟨_, rfl⟩

/-- The wildcard child that a route lays down where there is none. -/
theorem Wild.sprouts (leaf : Leaf α) {route : Route} (wildcard : route.isWildcard = true) :
    (Wild.sprout leaf route).part.Stems (· = route) ∧
      Sprouted leaf route (Wild.sprout leaf route).part.bound (Wild.sprout leaf route).fault := by
  have lays := Node.sprouts leaf route 1
  rw [Wild.sprout]
  cases laid : Node.sprout? leaf none 1 route with
  | none =>
      rw [laid] at lays
      exact ⟨trivial, Or.inl lays, fun other => rfl⟩
  | some grown =>
      rw [laid] at lays
      obtain ⟨⟨own, branches, wild⟩, fault⟩ := grown
      obtain ⟨⟨_, _, stems⟩, sprouted⟩ := lays
      obtain ⟨_, bare⟩ := Node.bare_of_wildcard wildcard laid
      cases bare
      rw [funext (Node.bound_bare wild)] at sprouted
      exact ⟨stems, sprouted⟩

/-! ## Branches -/

theorem Branches.mem_bytes_settle (byte : UInt8) (visits : Nat) (laid : Bool) (node : Node α)
    (others : Branches α) (asked : UInt8) :
    asked ∈ (others.settle byte visits laid node).bytes ↔ asked = byte ∨ asked ∈ others.bytes := by
  cases others with
  | nil => simp [Branches.settle, Branches.bytes]
  | cons first count known sibling rest =>
      simp only [Branches.settle]
      split
      · simp only [Branches.bytes, List.mem_cons]
        exact or_left_comm
      · simp only [Branches.bytes, List.mem_cons]

theorem Branches.stems_settle {tried : Route → Prop} {byte : UInt8} (visits : Nat) {laid : Bool}
    {node : Node α} {others : Branches α}
    (stems : (Branches.cons byte visits laid node others).Stems tried) :
    (others.settle byte visits laid node).Stems tried := by
  obtain ⟨known, below, fresh, rest⟩ := stems
  cases others with
  | nil => exact ⟨known, below, fresh, rest⟩
  | cons first count seen sibling others =>
      simp only [Branches.settle]
      split
      · obtain ⟨knownFirst, belowFirst, freshFirst, restFirst⟩ := rest
        simp only [Branches.bytes, List.mem_cons, not_or] at fresh
        refine ⟨knownFirst, belowFirst, ?_, known, below, fresh.2, restFirst⟩
        simp only [Branches.bytes, List.mem_cons, not_or]
        exact ⟨Ne.symm fresh.1, freshFirst⟩
      · exact ⟨known, below, fresh, rest⟩

/-- Where a branch stands does not matter. -/
theorem Branches.bound_settle {byte : UInt8} (visits : Nat) (laid : Bool) (node : Node α)
    {others : Branches α} (fresh : byte ∉ others.bytes) (asked : UInt8) (route : Route) :
    (others.settle byte visits laid node).bound asked route =
      (Branches.cons byte visits laid node others).bound asked route := by
  cases others with
  | nil => rfl
  | cons first count seen sibling others =>
      simp only [Branches.settle]
      split
      · simp only [Branches.bytes, List.mem_cons, not_or] at fresh
        simp only [Branches.bound]
        by_cases isFirst : first = asked
        · have different : byte ≠ asked := fun same => fresh.1 (same.trans isFirst.symm)
          rw [if_pos isFirst, if_neg different, if_pos isFirst]
        · rw [if_neg isFirst, if_neg isFirst]
      · rfl

theorem Branches.bound_of_not_mem {branches : Branches α} {byte : UInt8}
    (absent : byte ∉ branches.bytes) (route : Route) : branches.bound byte route = none := by
  cases branches with
  | nil => rfl
  | cons own visits laid node others =>
      simp only [Branches.bytes, List.mem_cons, not_or] at absent
      rw [Branches.bound, if_neg (Ne.symm absent.1)]
      exact Branches.bound_of_not_mem absent.2 route

theorem Node.sproutBranch_grows (leaf : Leaf α) (route : Route) :
    let grown := Node.sproutBranch leaf route
    (grown.part.1 = false → grown.part.2 = Node.empty) ∧
      grown.part.2.Stems (· = route) ∧ Sprouted leaf route grown.part.2.bound grown.fault := by
  have lays := Node.sprouts leaf route 1
  rw [Node.sproutBranch]
  cases laid : Node.sprout? leaf none 1 route with
  | none =>
      rw [laid] at lays
      exact ⟨fun _ => rfl, Node.stems_empty _, Or.inl lays, Node.bound_empty⟩
  | some grown =>
      rw [laid] at lays
      exact ⟨nofun, lays⟩

/-! ## Tails -/

theorem Tails.lengths_eq (tails : Tails α) : tails.lengths = tails.texts.map List.length := by
  cases tails with
  | nil => rfl
  | cons suffix node others =>
      rw [Tails.lengths, Tails.texts, List.map_cons, Tails.lengths_eq others]

/-- Halving closes in on the last length that is not below the wanted one. -/
theorem Tails.halve_spec (length : Nat) {lengths : List Nat}
    (sorted : ∀ low high, low ≤ high → high < lengths.length →
      lengths.getD high 0 ≤ lengths.getD low 0) (fuel : Nat) :
    ∀ base count, 0 < count → count ≤ fuel + 1 → base + count ≤ lengths.length →
      (∀ index, index < base → length ≤ lengths.getD index 0) →
      (∀ index, base + count ≤ index → index < lengths.length →
        lengths.getD index 0 < length) →
      let last := Tails.halve length lengths fuel base count
      last < lengths.length ∧ (∀ index, index < last → length ≤ lengths.getD index 0) ∧
        ∀ index, last < index → index < lengths.length → lengths.getD index 0 < length := by
  induction fuel with
  | zero =>
      intro base count filled enough within earlier later
      have one : count = 1 := by omega
      subst one
      exact ⟨within, earlier, later⟩
  | succ fuel inductionHypothesis =>
      intro base count filled enough within earlier later
      rw [Tails.halve]
      by_cases one : count ≤ 1
      · have exactly : count = 1 := by omega
        subst exactly
        rw [if_pos one]
        exact ⟨within, earlier, later⟩
      · rw [if_neg one]
        by_cases upper : length ≤ lengths.getD (base + count / 2) 0
        · simp only [if_pos upper]
          refine inductionHypothesis (base + count / 2) (count - count / 2) (by omega) (by omega)
            (by omega) ?_ (fun index beyond => later index (by omega))
          intro index before
          exact Nat.le_trans upper (sorted index (base + count / 2) (by omega) (by omega))
        · simp only [if_neg upper]
          refine inductionHypothesis base (count - count / 2) (by omega) (by omega) (by omega)
            earlier ?_
          intro index beyond inside
          have below := sorted (base + count / 2) index (by omega) inside
          omega

/-- A new tail goes behind those at least as long and in front of the others. -/
theorem Tails.placeFor_spec (length : Nat) {lengths : List Nat}
    (sorted : ∀ low high, low ≤ high → high < lengths.length →
      lengths.getD high 0 ≤ lengths.getD low 0) :
    let place := Tails.placeFor length lengths
    (∀ index, index < place → length ≤ lengths.getD index 0) ∧
      ∀ index, place ≤ index → index < lengths.length → lengths.getD index 0 < length := by
  rw [Tails.placeFor]
  by_cases bare : lengths = []
  · subst bare
    exact ⟨nofun, nofun⟩
  · rw [if_neg bare]
    have filled : 0 < lengths.length := List.length_pos_iff.mpr bare
    obtain ⟨within, earlier, later⟩ := Tails.halve_spec length sorted lengths.length 0
      lengths.length filled (by omega) (by omega) nofun (fun index beyond inside => by omega)
    by_cases upper :
        length ≤ lengths.getD (Tails.halve length lengths lengths.length 0 lengths.length) 0
    · simp only [if_pos upper]
      refine ⟨fun index before => ?_, fun index beyond => later index (by omega)⟩
      rcases Nat.lt_succ_iff_lt_or_eq.mp before with less | rfl
      · exact earlier index less
      · exact upper
    · simp only [if_neg upper]
      refine ⟨earlier, fun index beyond inside => ?_⟩
      rcases Nat.lt_or_eq_of_le beyond with less | rfl
      · exact later index less inside
      · omega

theorem Tails.texts_putAt (suffix : Bytes) (node : Node α) (place : Nat) (tails : Tails α) :
    (tails.putAt suffix node place).texts =
      tails.texts.take place ++ suffix :: tails.texts.drop place := by
  induction place generalizing tails with
  | zero => rfl
  | succ earlier inductionHypothesis =>
      cases tails with
      | nil => rfl
      | cons other sibling others =>
          simp only [Tails.putAt, Tails.texts, inductionHypothesis, List.take_succ_cons,
            List.drop_succ_cons, List.cons_append]

theorem Tails.stems_putAt {tried : Route → Prop} {suffix : Bytes} {node : Node α}
    (asked : ∃ next, tried (.paramThen suffix next))
    (below : node.Stems fun next => tried (.paramThen suffix next)) (place : Nat)
    {tails : Tails α} (stems : tails.Stems tried) :
    (tails.putAt suffix node place).Stems tried := by
  induction place generalizing tails with
  | zero => exact ⟨asked, below, stems⟩
  | succ earlier inductionHypothesis =>
      cases tails with
      | nil => exact ⟨asked, below, stems⟩
      | cons other sibling others =>
          obtain ⟨askedOther, belowOther, rest⟩ := stems
          exact ⟨askedOther, belowOther, inductionHypothesis rest⟩

theorem Tails.bound_putAt {suffix : Bytes} (node : Node α) (place : Nat) {tails : Tails α}
    (fresh : suffix ∉ tails.texts) (asked : Bytes) (route : Route) :
    (tails.putAt suffix node place).bound asked route =
      if suffix = asked then node.bound route else tails.bound asked route := by
  induction place generalizing tails with
  | zero => rfl
  | succ earlier inductionHypothesis =>
      cases tails with
      | nil => rfl
      | cons other sibling others =>
          simp only [Tails.texts, List.mem_cons, not_or] at fresh
          simp only [Tails.putAt, Tails.bound, inductionHypothesis fresh.2]
          by_cases isOther : other = asked
          · have different : suffix ≠ asked := fun same => fresh.1 (same.trans isOther.symm)
            rw [if_pos isOther, if_neg different, if_pos isOther]
          · rw [if_neg isOther, if_neg isOther]

theorem Tails.has_iff_mem {tails : Tails α} {suffix : Bytes} :
    tails.has suffix = true ↔ suffix ∈ tails.texts := by
  cases tails with
  | nil => simp [Tails.has, Tails.texts]
  | cons own node others =>
      rw [Tails.has, Tails.texts, Bool.or_eq_true, decide_eq_true_iff, List.mem_cons, eq_comm,
        Tails.has_iff_mem]

theorem Tails.getD_lengths (tails : Tails α) {index : Nat} (inside : index < tails.texts.length) :
    tails.lengths.getD index 0 = tails.texts[index].length := by
  simp [Tails.lengths_eq, List.getD_eq_getElem?_getD, inside]

/-- Tails stay in order when a new one is put at its place. -/
theorem Tails.pairwise_place {suffix : Bytes} (node : Node α) {tails : Tails α}
    (fresh : suffix ∉ tails.texts) (sorted : tails.texts.Pairwise Tails.Ahead) :
    (tails.place suffix node).texts.Pairwise Tails.Ahead := by
  have size : tails.lengths.length = tails.texts.length := by
    rw [Tails.lengths_eq, List.length_map]
  have falling : ∀ low high, low ≤ high → high < tails.lengths.length →
      tails.lengths.getD high 0 ≤ tails.lengths.getD low 0 := by
    intro low high order inside
    rw [size] at inside
    rw [Tails.getD_lengths tails inside, Tails.getD_lengths tails (Nat.lt_of_le_of_lt order inside)]
    rcases Nat.lt_or_eq_of_le order with less | rfl
    · exact (List.pairwise_iff_getElem.mp sorted low high _ inside less).2
    · exact Nat.le_refl _
  obtain ⟨earlier, later⟩ := Tails.placeFor_spec suffix.length falling
  rw [Tails.place, Tails.texts_putAt]
  generalize Tails.placeFor suffix.length tails.lengths = place at earlier later
  have whole := sorted
  rw [← List.take_append_drop place tails.texts, List.pairwise_append] at whole
  obtain ⟨first, second, between⟩ := whole
  refine List.pairwise_append.mpr ⟨first, List.pairwise_cons.mpr ⟨?_, second⟩, ?_⟩
  · intro text member
    refine ⟨fun same => fresh (same ▸ List.mem_of_mem_drop member), ?_⟩
    obtain ⟨index, inside, rfl⟩ := List.mem_drop_iff_getElem.mp member
    have below := later (place + index) (Nat.le_add_right _ _) (by omega)
    rw [Tails.getD_lengths tails (by omega)] at below
    exact Nat.le_of_lt below
  · intro text member other memberOther
    rcases List.mem_cons.mp memberOther with rfl | behind
    · refine ⟨fun same => fresh (same ▸ List.mem_of_mem_take member), ?_⟩
      obtain ⟨index, inside, rfl⟩ := List.mem_take_iff_getElem.mp member
      have above := earlier index (by omega)
      rw [Tails.getD_lengths tails (by omega)] at above
      exact above
    · exact between text member other behind

/-- A route with two wildcards in a segment is refused where no tail has its text. -/
theorem Tails.cut_of_not_mem (leaf : Leaf α) {lead spelled : Bytes} (next : Route)
    {tails : Tails α} (absent : lead ++ spelled ∉ tails.texts) :
    tails.cut leaf lead spelled next = ⟨tails, some .crowdedSegment⟩ := by
  cases tails with
  | nil => rfl
  | cons own node others =>
      simp only [Tails.texts, List.mem_cons, not_or] at absent
      rw [Tails.cut, if_neg (Ne.symm absent.1), Tails.cut_of_not_mem leaf next absent.2]
      rfl

/-! ## Insertion -/

/-- What was tried behind a first step, after one more route with that step. -/
theorem also_behind {tried : Route → Prop} {next : Route} (wrap : Route → Route) (later : Route)
    (asked : Also (fun other => tried (wrap other)) next later) :
    Also tried (wrap next) (wrap later) := by
  rcases asked with before | rfl
  · exact Or.inl before
  · exact Or.inr rfl

/-- A wildcard child is in the way of a remainder, and a remainder of any wildcard. -/
theorem Wild.clash_of_remainder {tried : Route → Prop} {own : Option (Leaf α)} {tails : Tails α}
    (stems : (Wild.param own tails).Stems tried) (name : Bytes) :
    ∃ other, tried other ∧ (Route.remainder name).clashes other = true := by
  obtain ⟨ends, filled, _, below⟩ := stems
  cases own with
  | some bound => exact ⟨.param, ends rfl, rfl⟩
  | none =>
      obtain ⟨suffix, member⟩ := List.exists_mem_of_ne_nil _ (filled rfl)
      obtain ⟨next, asked⟩ := Tails.tried_of_mem below member
      exact ⟨_, asked, rfl⟩

/-- What happens to the wildcard child of a node, seen from the node. -/
theorem Grows.beside {tried : Route → Prop} {leaf : Leaf α} {route : Route} {before after : Wild α}
    {fault : Option InsertFault} (wildcard : route.isWildcard = true)
    (grows : Grows tried leaf route before.bound after.bound fault) (own : Option (Leaf α))
    (branches : Branches α) :
    Grows tried leaf route (Node.mk own branches before).bound (Node.mk own branches after).bound
      fault := by
  have inside : ∀ (wild : Wild α) {other : Route}, other.isWildcard = true →
      (Node.mk own branches wild).bound other = wild.bound other :=
    Node.bound_wildcard own branches
  have outside : ∀ {other : Route}, ¬ other.isWildcard = true →
      (Node.mk own branches after).bound other = (Node.mk own branches before).bound other := by
    intro other notWild
    cases other with
    | stop => rfl
    | literal byte next => rfl
    | _ => exact absurd rfl notWild
  cases fault with
  | none =>
      obtain ⟨plain, free, bound⟩ := grows
      refine ⟨plain, (inside before wildcard).trans free, fun other => ?_⟩
      by_cases isWild : other.isWildcard = true
      · rw [inside after isWild, inside before isWild, bound]
      · have different : other ≠ route := fun same => isWild (same ▸ wildcard)
        rw [if_neg different, outside isWild]
  | some cause =>
      obtain ⟨reason, same⟩ := grows
      refine ⟨reason, fun other => ?_⟩
      by_cases isWild : other.isWildcard = true
      · rw [inside after isWild, inside before isWild, same]
      · exact outside isWild

mutual
theorem Node.insert_grows (leaf : Leaf α) {tried : Route → Prop} {node : Node α}
    (stems : node.Stems tried) (trail : Trail) {route : Route}
    (noCut : ∀ other, tried other → route.cuts other = false) :
    (node.insert leaf trail route).part.Stems (Also tried route) ∧
      Grows tried leaf route node.bound (node.insert leaf trail route).part.bound
        (node.insert leaf trail route).fault := by
  cases node with
  | mk own branches wild =>
      have grown := stems.mono (also_mono route)
      obtain ⟨ends, below, beside⟩ := stems
      have onWild : route.isWildcard = true →
          (Node.mk own branches (wild.insert leaf trail route).part).Stems (Also tried route) ∧
            Grows tried leaf route (Node.mk own branches wild).bound
              (Node.mk own branches (wild.insert leaf trail route).part).bound
              (wild.insert leaf trail route).fault := by
        intro wildcard
        obtain ⟨stemsWild, grows⟩ := Wild.insert_grows leaf beside trail wildcard noCut
        exact ⟨⟨grown.1, grown.2.1, stemsWild⟩, grows.beside wildcard own branches⟩
      cases route with
      | stop =>
          cases own with
          | some bound =>
              exact ⟨grown, Or.inr ⟨.stop, ends rfl, rfl⟩, fun other => rfl⟩
          | none =>
              refine ⟨⟨fun _ => Or.inr rfl, grown.2⟩, rfl, rfl, fun other => ?_⟩
              cases other <;> rfl
      | literal byte next =>
          have noCutNext : ∀ other, tried (.literal byte other) → next.cuts other = false := by
            intro other asked
            simpa [Route.cuts] using noCut _ asked
          obtain ⟨stemsBelow, _, grows, elsewhere⟩ :=
            Branches.insert_grows leaf below trail byte noCutNext
          refine ⟨⟨grown.1, stemsBelow, grown.2.2⟩, ?_⟩
          refine Grows.literal byte grows (fun _ => rfl) (fun _ => rfl) (fun other outside => ?_)
          cases other with
          | literal asked later =>
              exact elsewhere asked later fun same => outside later (by rw [same])
          | _ => rfl
      | param => exact onWild rfl
      | paramThen suffix next => exact onWild rfl
      | remainder name => exact onWild rfl
      | crowded lead spelled next => exact onWild rfl
      | stray => exact onWild rfl

theorem Branches.insert_grows (leaf : Leaf α) {tried : Route → Prop} {branches : Branches α}
    (stems : branches.Stems tried) (trail : Trail) (byte : UInt8) {route : Route}
    (noCut : ∀ other, tried (.literal byte other) → route.cuts other = false) :
    (branches.insert leaf trail byte route).part.Stems (Also tried (.literal byte route)) ∧
      (∀ other, other ∈ (branches.insert leaf trail byte route).part.bytes ↔
        other = byte ∨ other ∈ branches.bytes) ∧
      Grows (fun later => tried (.literal byte later)) leaf route (branches.bound byte)
        ((branches.insert leaf trail byte route).part.bound byte)
        (branches.insert leaf trail byte route).fault ∧
      ∀ other later, other ≠ byte →
        (branches.insert leaf trail byte route).part.bound other later =
          branches.bound other later := by
  cases branches with
  | nil =>
      obtain ⟨known, below, sprouted⟩ := Node.sproutBranch_grows leaf route
      simp only [Branches.insert, Grown.part_map, Grown.fault_map]
      refine ⟨⟨known, ?_, List.not_mem_nil, trivial⟩, ?_, ?_, ?_⟩
      · exact below.mono fun later same => Or.inr (congrArg _ same)
      · exact fun other => by simp [Branches.bytes]
      · simpa [Branches.bound] using sprouted.grows (fun _ => none) fun _ => rfl
      · intro other later different
        simp [Branches.bound, Ne.symm different]
  | cons own visits laid node others =>
      have grown := Branches.Stems.mono (also_mono (.literal byte route)) stems
      obtain ⟨known, below, fresh, rest⟩ := stems
      obtain ⟨_, _, _, grownRest⟩ := grown
      simp only [Branches.insert]
      by_cases same : own = byte
      · subst same
        rw [if_pos rfl]
        have alike : ∀ other, other ∈ own :: others.bytes ↔
            other = own ∨ other ∈ own :: others.bytes := fun other => by simp
        cases laid with
        | true =>
            obtain ⟨stemsNode, grows⟩ := Node.insert_grows leaf below (trail.byte own) noCut
            simp only [if_true, Grown.part_map, Grown.fault_map]
            refine ⟨⟨nofun, stemsNode.mono (also_behind (.literal own)), fresh, grownRest⟩,
              alike, ?_, ?_⟩
            · simpa [Branches.bound] using grows
            · intro other later different
              simp [Branches.bound, Ne.symm different]
        | false =>
            obtain ⟨knownNow, stemsNode, sprouted⟩ := Node.sproutBranch_grows leaf route
            have bare : node = Node.empty := known rfl
            subst bare
            simp only [Bool.false_eq_true, if_false, Grown.part_map, Grown.fault_map]
            refine ⟨⟨knownNow, ?_, fresh, grownRest⟩, alike, ?_, ?_⟩
            · exact stemsNode.mono fun later equal => Or.inr (congrArg _ equal)
            · simpa [Branches.bound] using
                sprouted.grows Node.empty.bound Node.bound_empty
            · intro other later different
              simp [Branches.bound, Ne.symm different]
      · rw [if_neg same]
        obtain ⟨stemsOthers, bytes, grows, elsewhere⟩ :=
          Branches.insert_grows leaf rest trail byte noCut
        have freshNow : own ∉ (others.insert leaf trail byte route).part.bytes := by
          rw [bytes, not_or]
          exact ⟨same, fresh⟩
        simp only [Grown.part_map, Grown.fault_map]
        refine ⟨Branches.stems_settle visits
            ⟨known, below.mono fun later => Or.inl, freshNow, stemsOthers⟩, ?_, ?_, ?_⟩
        · intro other
          rw [Branches.mem_bytes_settle, bytes, Branches.bytes, List.mem_cons]
          exact or_left_comm
        · rw [funext (Branches.bound_settle visits laid node freshNow byte)]
          simpa [Branches.bound, same] using grows
        · intro other later different
          rw [Branches.bound_settle visits laid node freshNow, Branches.bound, Branches.bound,
            elsewhere other later different]

theorem Wild.insert_grows (leaf : Leaf α) {tried : Route → Prop} {wild : Wild α}
    (stems : wild.Stems tried) (trail : Trail) {route : Route}
    (wildcard : route.isWildcard = true) (noCut : ∀ other, tried other → route.cuts other = false) :
    (wild.insert leaf trail route).part.Stems (Also tried route) ∧
      Grows tried leaf route wild.bound (wild.insert leaf trail route).part.bound
        (wild.insert leaf trail route).fault := by
  cases wild with
  | absent =>
      obtain ⟨below, sprouted⟩ := Wild.sprouts leaf wildcard
      exact ⟨below.mono fun later same => Or.inr same,
        sprouted.grows Wild.absent.bound fun _ => rfl⟩
  | remainder name bound =>
      refine ⟨also_mono route _ stems, ?_, fun other => rfl⟩
      cases route with
      | stop => exact nomatch wildcard
      | literal byte next => exact nomatch wildcard
      | crowded lead spelled next => exact Or.inl rfl
      | stray => exact Or.inl rfl
      | _ => exact Or.inr ⟨_, stems, rfl⟩
  | param own tails =>
      have grown := Wild.Stems.mono (also_mono route) stems
      have clash := Wild.clash_of_remainder stems
      obtain ⟨ends, filled, sorted, below⟩ := stems
      have grownEnds := grown.1
      have grownBelow := grown.2.2.2
      cases route with
      | stop => exact nomatch wildcard
      | literal byte next => exact nomatch wildcard
      | stray => exact ⟨grown, Or.inl rfl, fun other => rfl⟩
      | remainder name => exact ⟨grown, Or.inr (clash name), fun other => rfl⟩
      | param =>
          cases own with
          | some bound => exact ⟨grown, Or.inr ⟨.param, ends rfl, rfl⟩, fun other => rfl⟩
          | none =>
              refine ⟨⟨fun _ => Or.inr rfl, nofun, sorted, grownBelow⟩, rfl, rfl, fun other => ?_⟩
              cases other <;> rfl
      | crowded lead spelled next =>
          have absent : lead ++ spelled ∉ tails.texts := by
            intro member
            obtain ⟨later, asked⟩ := Tails.tried_of_mem below member
            have cut := noCut _ asked
            simp [Route.cuts] at cut
          simp only [Wild.insert, Tails.cut_of_not_mem leaf next absent]
          exact ⟨grown, Or.inl rfl, fun other => rfl⟩
      | paramThen suffix next =>
          simp only [Wild.insert]
          by_cases has : suffix ∈ tails.texts
          · have noCutNext :
                ∀ other, tried (.paramThen suffix other) → next.cuts other = false := by
              intro other asked
              simpa [Route.cuts] using noCut _ asked
            obtain ⟨texts, stemsTails, grows, elsewhere⟩ :=
              Tails.insert_grows leaf below trail.param has noCutNext
            rw [if_pos (Tails.has_iff_mem.mpr has)]
            refine ⟨⟨grownEnds, ?_, ?_, stemsTails⟩, Wild.param_tail_grows grows elsewhere⟩
            · rwa [texts]
            · rwa [texts]
          · obtain ⟨stemsNode, sprouted⟩ := Node.sproutTail_grows leaf next
            rw [if_neg fun present => has (Tails.has_iff_mem.mp present)]
            refine ⟨⟨grownEnds, ?_, Tails.pairwise_place _ has sorted,
              Tails.stems_putAt ⟨next, Or.inr rfl⟩ ?_ _ grownBelow⟩, ?_⟩
            · intro _ bare
              rw [Tails.place, Tails.texts_putAt] at bare
              simp at bare
            · exact stemsNode.mono fun later same => Or.inr (congrArg _ same)
            · refine Wild.param_tail_grows ?_ fun other later different => ?_
              · simpa [Tails.place, funext (Tails.bound_putAt _ _ has suffix)] using
                  sprouted.grows (tails.bound suffix) (Tails.bound_of_not_mem has)
              · rw [Tails.place, Tails.bound_putAt _ _ has, if_neg (Ne.symm different)]

theorem Tails.insert_grows (leaf : Leaf α) {tried : Route → Prop} {tails : Tails α}
    (stems : tails.Stems tried) (trail : Trail) {suffix : Bytes} {route : Route}
    (has : suffix ∈ tails.texts)
    (noCut : ∀ other, tried (.paramThen suffix other) → route.cuts other = false) :
    (tails.insert leaf trail suffix route).part.texts = tails.texts ∧
      (tails.insert leaf trail suffix route).part.Stems (Also tried (.paramThen suffix route)) ∧
      Grows (fun later => tried (.paramThen suffix later)) leaf route (tails.bound suffix)
        ((tails.insert leaf trail suffix route).part.bound suffix)
        (tails.insert leaf trail suffix route).fault ∧
      ∀ other later, other ≠ suffix →
        (tails.insert leaf trail suffix route).part.bound other later =
          tails.bound other later := by
  cases tails with
  | nil => exact absurd has List.not_mem_nil
  | cons own node others =>
      have grown := Tails.Stems.mono (also_mono (.paramThen suffix route)) stems
      obtain ⟨asked, below, rest⟩ := stems
      obtain ⟨grownAsked, _, grownRest⟩ := grown
      simp only [Tails.insert]
      by_cases same : own = suffix
      · subst same
        obtain ⟨stemsNode, grows⟩ := Node.insert_grows leaf below (trail.bytes own) noCut
        simp only [if_true, Grown.part_map, Grown.fault_map]
        refine ⟨rfl, ⟨grownAsked, stemsNode.mono (also_behind (.paramThen own)), grownRest⟩, ?_, ?_⟩
        · simpa [Tails.bound] using grows
        · intro other later different
          simp [Tails.bound, Ne.symm different]
      · have behind : suffix ∈ others.texts :=
          (List.mem_cons.mp has).resolve_left (Ne.symm same)
        obtain ⟨texts, stemsOthers, grows, elsewhere⟩ :=
          Tails.insert_grows leaf rest trail behind noCut
        simp only [if_neg same, Grown.part_map, Grown.fault_map]
        refine ⟨congrArg (own :: ·) texts,
          ⟨grownAsked, below.mono fun later => Or.inl, stemsOthers⟩, ?_, ?_⟩
        · simpa [Tails.bound, same] using grows
        · intro other later different
          rw [Tails.bound, Tails.bound, elsewhere other later different]
end

/-- An insertion into a tree without a pattern that ends at the root. -/
theorem PathTree.insert_grows {tried : Route → Prop} {tree : PathTree α}
    (stems : tree.root.Stems tried) (unended : ¬ tried .stop) (pattern : Pattern) (value : α)
    (noCut : ∀ other, tried other → pattern.route.cuts other = false) :
    (tree.insert pattern value).part.root.Stems (Also tried pattern.route) ∧
      Grows tried ⟨pattern.params, value⟩ pattern.route tree.root.bound
        (tree.insert pattern value).part.root.bound (tree.insert pattern value).fault := by
  obtain ⟨attempts, ⟨own, branches, wild⟩⟩ := tree
  have general :=
    Node.insert_grows ⟨pattern.params, value⟩ stems Trail.start noCut
  cases branches with
  | cons byte visits laid node others => exact general
  | nil =>
      cases wild with
      | param leaf tails => exact general
      | remainder name leaf => exact general
      | absent =>
          cases own with
          | some bound => exact absurd (stems.1 rfl) unended
          | none =>
              have lays := Node.sprouts ⟨pattern.params, value⟩ pattern.route (attempts + 1)
              simp only [PathTree.insert, Grown.part_map, Grown.fault_map]
              cases laid : Node.sprout? ⟨pattern.params, value⟩ none (attempts + 1)
                  pattern.route with
              | none =>
                  rw [laid] at lays
                  exact ⟨stems.mono (also_mono _), Or.inl lays, fun other => rfl⟩
              | some grown =>
                  rw [laid] at lays
                  obtain ⟨stemsNow, sprouted⟩ := lays
                  exact ⟨stemsNow.mono fun later same => Or.inr same,
                    sprouted.grows Node.empty.bound Node.bound_empty⟩

end FunctionGateway.Routing
