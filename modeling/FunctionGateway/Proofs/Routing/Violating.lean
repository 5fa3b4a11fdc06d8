import FunctionGateway.Proofs.Routing.Guarded

/-!
# Bindings whose rules are broken

A path may match a binding with values that break the rules of the binding.  Leaving such
bindings out of a router makes no difference where none of them is in the way: a tree commits to
one pattern before it looks at rules, so a binding whose rules are broken hides those
behind it and those it overtakes.
-/

namespace FunctionGateway.Routing

open FunctionGateway.Http
open FunctionGateway.Text

variable {α : Type}

/-- Every value under a constrained name satisfies the rule. -/
def Endpoint.Keeps (endpoint : Endpoint α) (params : List (String × String)) : Prop :=
  ∀ constraint ∈ endpoint.constraints, ∀ value,
    (constraint.1, value) ∈ params → constraint.2.admits value = true

namespace Binding

/-- The pattern of a binding matches a path with these parameters. -/
def Captures (binding : Binding α) (path : String) (params : List (String × String)) : Prop :=
  ∃ pieces values, Piece.Spelled binding.source pieces ∧
    Place.Fits (pieces.map Piece.place) (encodeUtf8 path) values ∧
    params.map (fun (name, value) => (encodeUtf8 name, encodeUtf8 value)) =
      (pieces.filterMap Piece.name?).zip values

/-- The pattern of a binding matches a path with a value that breaks one of its rules. -/
def Violates (binding : Binding α) (path : String) : Prop :=
  ∃ params, binding.Captures path params ∧ ¬ binding.endpoint.Keeps params

/-- The pattern of a binding matches a path, and every value satisfies its rules. -/
def Satisfies (binding : Binding α) (path : String) : Prop :=
  (∃ params, binding.Captures path params) ∧ ¬ binding.Violates path

/-- No name with a rule has two values. -/
def UsesOnce (binding : Binding α) (path : String) : Prop :=
  ∀ params, binding.Captures path params →
    ∀ constraint ∈ binding.endpoint.constraints, (params.map Prod.fst).count constraint.1 ≤ 1

end Binding

/-- A binding whose rules a path breaks is behind those of its tree whose rules the path keeps,
and takes the path away from none of them. -/
def Unhindered (bindings : Binding α → Prop) (path : String) : Prop :=
  ∀ broken kept, bindings broken → bindings kept → broken.scope = kept.scope →
    broken.Violates path → kept.Satisfies path →
      ∀ pieces others, Piece.Spelled broken.source pieces → Piece.Spelled kept.source others →
        Place.Precedes (others.map Piece.place) (pieces.map Piece.place) ∧
          ¬ Place.Overtakes (pieces.map Piece.place) (others.map Piece.place) (encodeUtf8 path)

/-! ## One binding -/

section Binding

variable {binding : Binding α} {path : String} {params : List (String × String)}

/-- What a tree checks, the first value of each name, is all there is if names are used once. -/
theorem Endpoint.admits_iff_keeps {endpoint : Endpoint α}
    (once : ∀ constraint ∈ endpoint.constraints, (params.map Prod.fst).count constraint.1 ≤ 1) :
    endpoint.admits params = true ↔ endpoint.Keeps params := by
  rw [Endpoint.admits, List.all_eq_true]
  constructor
  · intro admits constraint member value present
    have rule := admits constraint member
    have first := lookup_of_mem (once constraint member) present
    simp only [first] at rule
    exact rule
  · intro keeps constraint member
    cases asked : params.lookup constraint.1 with
    | none => simp only [asked]
    | some value =>
        simp only [asked]
        exact keeps constraint member value (mem_of_lookup asked)

/-- A binding that is read captures one list of parameters. -/
theorem Binding.Reads.captures_unique {pattern : Pattern} {pieces : List Piece}
    (reads : binding.Reads pattern pieces) {first second : List (String × String)}
    (left : binding.Captures path first) (right : binding.Captures path second) :
    first = second := by
  obtain ⟨own, values, spelled, fits, params⟩ := left
  obtain ⟨other, taken, spelledToo, fitsToo, paramsToo⟩ := right
  cases reads.spelled.unique spelled
  cases reads.spelled.unique spelledToo
  rw [← reads.places] at fits fitsToo
  have same := Route.fits_unique (Pattern.proper reads.read) reads.plain fits fitsToo
  subst same
  exact params_eq_of_encoded (params.trans paramsToo.symm)

/-- A binding that matches captures something. -/
theorem Binding.Reads.exists_captures {pattern : Pattern} {pieces : List Piece}
    (reads : binding.Reads pattern pieces) {values : List Bytes}
    (fits : Place.Fits (pieces.map Piece.place) (encodeUtf8 path) values) :
    binding.Captures path (textsOf (pieces.filterMap Piece.name?) values) :=
  ⟨pieces, values, reads.spelled, fits, reads.encode_texts fits⟩

/-- A tree that has come to a binding answers with it unless the path breaks its rules. -/
theorem Binding.Reads.admits_iff {pattern : Pattern} {pieces : List Piece}
    (reads : binding.Reads pattern pieces) (once : binding.UsesOnce path)
    (captures : binding.Captures path params) :
    binding.endpoint.admits params = true ↔ ¬ binding.Violates path := by
  rw [Endpoint.admits_iff_keeps (once params captures)]
  constructor
  · rintro keeps ⟨other, capturesToo, breaks⟩
    cases reads.captures_unique captures capturesToo
    exact breaks keeps
  · intro kept
    exact Classical.byContradiction fun breaks => kept ⟨params, captures, breaks⟩

end Binding

/-! ## One tree -/

section Tree

variable {bindings reduced : Binding α → Prop} {scope : Scope} {path : String}

theorem Stays.captures {binding : Binding α} {pieces : List Piece} {values : List Bytes}
    {params : List (String × String)}
    (stays : Stays Place.Overtakes bindings scope (encodeUtf8 path) binding pieces values)
    (same : params.map (fun (name, value) => (encodeUtf8 name, encodeUtf8 value)) =
      (pieces.filterMap Piece.name?).zip values) : binding.Captures path params :=
  ⟨pieces, values, stays.spelled, stays.fits, same⟩

/-- Without the bindings whose rules are broken, the others stay as they did. -/
theorem Stays.reduced_iff
    (only : ∀ binding, reduced binding ↔ bindings binding ∧ ¬ binding.Violates path)
    (readable : ∀ binding, bindings binding → ∃ pattern pieces, binding.Reads pattern pieces)
    (unhindered : Unhindered bindings path) {binding : Binding α} {pieces : List Piece}
    {values : List Bytes} :
    Stays Place.Overtakes reduced scope (encodeUtf8 path) binding pieces values ↔
      Stays Place.Overtakes bindings scope (encodeUtf8 path) binding pieces values ∧
        ¬ binding.Violates path := by
  constructor
  · intro stays
    obtain ⟨bound, kept⟩ := (only binding).mp stays.bound
    refine ⟨⟨bound, stays.located, stays.spelled, stays.fits, ?_⟩, kept⟩
    intro other others boundOther located spelled
    by_cases broken : other.Violates path
    · obtain ⟨pattern, own, reads⟩ := readable binding bound
      cases reads.spelled.unique stays.spelled
      have captured := reads.exists_captures stays.fits
      have alike : other.scope = binding.scope := located.trans stays.located.symm
      exact (unhindered other binding boundOther bound alike broken ⟨⟨_, captured⟩, kept⟩ others
        pieces spelled stays.spelled).2
    · exact stays.remains other others ((only other).mpr ⟨boundOther, broken⟩) located spelled
  · rintro ⟨stays, kept⟩
    refine ⟨(only binding).mpr ⟨stays.bound, kept⟩, stays.located, stays.spelled, stays.fits, ?_⟩
    intro other others boundOther
    exact stays.remains other others ((only other).mp boundOther).1

/-- A tree answers a path as it does without the bindings whose rules the path breaks. -/
theorem answered_iff_reduced
    (only : ∀ binding, reduced binding ↔ bindings binding ∧ ¬ binding.Violates path)
    (readable : ∀ binding, bindings binding → ∃ pattern pieces, binding.Reads pattern pieces)
    (once : ∀ binding, bindings binding → binding.UsesOnce path)
    (unhindered : Unhindered bindings path) (handler : α) (params : List (String × String)) :
    Answered Place.Overtakes bindings scope path handler params ↔
      Answered Place.Overtakes reduced scope path handler params := by
  constructor
  · rintro ⟨binding, pieces, values, chosen, same, admits, rfl⟩
    obtain ⟨pattern, own, reads⟩ := readable binding chosen.bound
    have captured := chosen.toStays.captures same
    have kept := (reads.admits_iff (once binding chosen.bound) captured).mp admits
    have stays := (Stays.reduced_iff only readable unhindered).mpr ⟨chosen.toStays, kept⟩
    refine ⟨binding, pieces, values, ⟨stays, ?_⟩, same, admits, rfl⟩
    intro other others taken staysOther
    have before := (Stays.reduced_iff only readable unhindered).mp staysOther
    exact chosen.first other others taken before.1
  · rintro ⟨binding, pieces, values, chosen, same, admits, rfl⟩
    obtain ⟨stays, kept⟩ := (Stays.reduced_iff only readable unhindered).mp chosen.toStays
    refine ⟨binding, pieces, values, ⟨stays, ?_⟩, same, admits, rfl⟩
    intro other others taken staysOther
    by_cases broken : other.Violates path
    · have alike : other.scope = binding.scope := staysOther.located.trans stays.located.symm
      have satisfied : binding.Satisfies path := ⟨⟨_, stays.captures same⟩, kept⟩
      exact Or.inr (unhindered other binding staysOther.bound stays.bound alike broken satisfied
        others pieces staysOther.spelled stays.spelled).1
    · have before :=
        (Stays.reduced_iff only readable unhindered).mpr ⟨staysOther, broken⟩
      exact chosen.first other others taken before

theorem Silent.congr {out : List Place → List Place → Bytes → Prop}
    (same : ∀ handler params,
      Answered out bindings scope path handler params ↔
        Answered out reduced scope path handler params) :
    Silent out bindings scope path ↔ Silent out reduced scope path :=
  forall_congr' fun handler => forall_congr' fun params => not_congr (same handler params)

/-- Bindings that answer alike in every tree have one reference. -/
theorem Reference.congr {out : List Place → List Place → Bytes → Prop}
    (same : ∀ scope handler params,
      Answered out bindings scope path handler params ↔
        Answered out reduced scope path handler params)
    {method : Method} {answer : Router.Lookup α}
    (reference : Reference out bindings method path answer) :
    Reference out reduced method path answer := by
  have silent := fun scope => Silent.congr (same scope)
  cases reference with
  | own handler params answered => exact .own handler params ((same _ handler params).mp answered)
  | any handler params silentOwn answered =>
      exact .any handler params ((silent _).mp silentOwn) ((same _ handler params).mp answered)
  | others allowed silentOwn silentAny nonempty sorted members =>
      refine .others allowed ((silent _).mp silentOwn) ((silent _).mp silentAny) nonempty sorted ?_
      intro other
      rw [members other, silent]
  | nowhere silentAll silentAny =>
      exact .nowhere (fun other => (silent _).mp (silentAll other)) ((silent _).mp silentAny)

end Tree

/-! ## Whole routers -/

theorem undisturbed_of_accepted {log : List (Attempt α)}
    (accepted : ∀ attempt ∈ log, attempt.accepted = true) (path : String) :
    Undisturbed log path := by
  intro attempt member refused
  exact absurd (refused.symm.trans (accepted attempt member)) Bool.false_ne_true

/-- A tree with a binding whose rules the path keeps, and which nothing overtakes, answers. -/
theorem Tracks.answered_of_stays {trees : Scope → PathTree (Endpoint α)} {log : List (Attempt α)}
    (tracks : Tracks trees log) {path : String} (undisturbed : Undisturbed log path)
    (once : ∀ binding, Bound log binding → binding.UsesOnce path)
    (unhindered : Unhindered (Bound log) path) {scope : Scope} {binding : Binding α}
    {pieces : List Piece} {values : List Bytes}
    (stays : Stays Place.Overtakes (Bound log) scope (encodeUtf8 path) binding pieces values)
    (satisfied : binding.Satisfies path) :
    ∃ handler params, Answered Place.Overtakes (Bound log) scope path handler params := by
  rcases tracks.find_cases undisturbed scope with
    ⟨_, nothing⟩ | ⟨first, others, taken, chosen, _, texts⟩
  · exact absurd stays (nothing binding pieces values)
  · have kept : ¬ first.Violates path := by
      intro broken
      rcases chosen.first binding pieces values stays with rfl | before
      · exact satisfied.2 broken
      · have alike : first.scope = binding.scope := chosen.located.trans stays.located.symm
        have after := (unhindered first binding chosen.bound stays.bound alike broken satisfied
          others pieces chosen.spelled stays.spelled).1
        exact absurd after before.asymm
    obtain ⟨pattern, own, reads⟩ := tracks.reads chosen.bound
    have captured := chosen.toStays.captures texts
    have admits := (reads.admits_iff (once first chosen.bound) captured).mpr kept
    exact ⟨_, _, first, others, taken, chosen, texts, admits, rfl⟩

/-- A reference that some tree of the method has an answer for is a handler. -/
theorem Reference.exists_found {out : List Place → List Place → Bytes → Prop}
    {bindings : Binding α → Prop} {method : Method} {path : String} {answer : Router.Lookup α}
    (reference : Reference out bindings method path answer) {scope : Scope}
    (reaches : scope = .any ∨ scope = .only method) {own : α} {given : List (String × String)}
    (answered : Answered out bindings scope path own given) :
    ∃ handler params, answer = .found handler params := by
  cases reference with
  | own handler params _ => exact ⟨handler, params, rfl⟩
  | any handler params _ _ => exact ⟨handler, params, rfl⟩
  | others allowed silentOwn silentAny =>
      rcases reaches with rfl | rfl
      · exact absurd answered (silentAny _ _)
      · exact absurd answered (silentOwn _ _)
  | nowhere silentAll silentAny =>
      rcases reaches with rfl | rfl
      · exact absurd answered (silentAny _ _)
      · exact absurd answered (silentAll _ _ _)

/-- Bindings whose rules a path breaks may be left out of a router as long as none of them stands
in front of, or overtakes, a binding of its tree whose rules the path keeps.  Then a lookup
answers the same, and a binding whose rules the path keeps, and which nothing overtakes,
gets the path to a handler. -/
theorem Router.lookup_without_violating (calls others : List (RouteSpec × α))
    (rooted : ∀ call ∈ calls ++ others, Rooted call.1.template)
    (accepted : ∀ attempt ∈ Router.empty.record calls ++ Router.empty.record others,
      attempt.accepted = true)
    (uncut : Uncut (Router.empty.record calls)) (uncutToo : Uncut (Router.empty.record others))
    (path : String)
    (only : ∀ binding, Bound (Router.empty.record others) binding ↔
      Bound (Router.empty.record calls) binding ∧ ¬ binding.Violates path)
    (once : ∀ binding, Bound (Router.empty.record calls) binding → binding.UsesOnce path)
    (unhindered : Unhindered (Bound (Router.empty.record calls)) path) (method : Method) :
    (Router.empty.routeAll calls).lookup method path =
        (Router.empty.routeAll others).lookup method path ∧
      ∀ scope binding pieces values, scope = .any ∨ scope = .only method →
        Stays Place.Overtakes (Bound (Router.empty.record calls)) scope (encodeUtf8 path) binding
          pieces values →
        binding.Satisfies path →
        ∃ handler params,
          (Router.empty.routeAll calls).lookup method path = .found handler params := by
  have rootedCalls : ∀ call ∈ calls, Rooted call.1.template :=
    fun call member => rooted call (List.mem_append_left _ member)
  have rootedOthers : ∀ call ∈ others, Rooted call.1.template :=
    fun call member => rooted call (List.mem_append_right _ member)
  have undisturbed : Undisturbed (Router.empty.record calls) path :=
    undisturbed_of_accepted
      (fun attempt member => accepted attempt (List.mem_append_left _ member)) path
  have undisturbedToo : Undisturbed (Router.empty.record others) path :=
    undisturbed_of_accepted
      (fun attempt member => accepted attempt (List.mem_append_right _ member)) path
  have tracks := Tracks.start.routeAll rootedCalls uncut
  have tracksToo := Tracks.start.routeAll rootedOthers uncutToo
  have reference :=
    tracks.reference_of_lookup Router.Keyed.start.routeAll undisturbed method
  have referenceToo :=
    tracksToo.reference_of_lookup Router.Keyed.start.routeAll undisturbedToo method
  have same : ∀ scope handler params,
      Answered Place.Overtakes (Bound (Router.empty.record others)) scope path handler params ↔
        Answered Place.Overtakes (Bound (Router.empty.record calls)) scope path handler params :=
    fun scope handler params =>
      (answered_iff_reduced only (fun _ => tracks.reads) once unhindered handler params).symm
  refine ⟨tracks.reference_unique undisturbed reference (referenceToo.congr same), ?_⟩
  intro scope binding pieces values reaches stays satisfied
  obtain ⟨handler, params, answered⟩ :=
    tracks.answered_of_stays undisturbed once unhindered stays satisfied
  exact reference.exists_found reaches answered

/-! ## A rule in the way, and one that is not -/

theorem Binding.not_violates_of_free {binding : Binding α}
    (free : binding.endpoint.constraints = []) (path : String) : ¬ binding.Violates path := by
  intro violates
  obtain ⟨params, _, breaks⟩ := violates
  apply breaks
  intro constraint member
  rw [free] at member
  exact absurd member List.not_mem_nil

theorem bound_pair_iff {first second binding : Binding α} :
    Bound [⟨first, true⟩, ⟨second, true⟩] binding ↔ binding = first ∨ binding = second := by
  constructor
  · rintro ⟨attempt, member, _, rfl⟩
    simp only [List.mem_cons, List.not_mem_nil, or_false] at member
    rcases member with rfl | rfl
    · exact Or.inl rfl
    · exact Or.inr rfl
  · intro either
    rcases either with rfl | rfl
    · exact ⟨_, List.mem_cons_self, rfl, rfl⟩
    · exact ⟨_, List.mem_cons_of_mem _ List.mem_cons_self, rfl, rfl⟩

theorem bound_single_iff {only binding : Binding α} :
    Bound [⟨only, true⟩] binding ↔ binding = only := by
  constructor
  · rintro ⟨attempt, member, _, rfl⟩
    cases List.mem_singleton.mp member
    rfl
  · rintro rfl
    exact ⟨_, List.mem_cons_self, rfl, rfl⟩

/-- Of two bindings, one of which is broken, the other one is left. -/
theorem bound_single_iff_pair {broken kept : Binding α} {path : String}
    (violates : broken.Violates path) (keeps : ¬ kept.Violates path) (binding : Binding α) :
    Bound [⟨kept, true⟩] binding ↔
      Bound [⟨broken, true⟩, ⟨kept, true⟩] binding ∧ ¬ binding.Violates path := by
  rw [bound_single_iff, bound_pair_iff]
  constructor
  · rintro rfl
    exact ⟨Or.inr rfl, keeps⟩
  · rintro ⟨either, satisfied⟩
    rcases either with rfl | rfl
    · exact absurd violates satisfied
    · rfl

/-- A pattern whose parameter has to be a name. -/
def named : Binding String :=
  ⟨.only .get, "/a/\x7bname\x7d", ⟨"named", [("name", .name)]⟩⟩

def namedCall : RouteSpec × String :=
  ((RouteSpec.exactly "/a/\x7bname\x7d" (.one .get)).constrain "name" .name, "named")

theorem spelled_named :
    Piece.Spelled named.source
      [.literal 0x2f, .literal 0x61, .literal 0x2f, .param [0x6e, 0x61, 0x6d, 0x65]] :=
  Piece.spelled_of_read rfl rfl

theorem violates_named : named.Violates "/a/b c" := by
  refine ⟨[("name", "b c")], ⟨_, [[0x62, 0x20, 0x63]], spelled_named, ?_, by decide⟩, ?_⟩
  · exact .literal _ (.literal _ (.literal _
      (.param [0x62, 0x20, 0x63] (by decide) (by decide) .done)))
  · intro keeps
    have admits := keeps ("name", .name) List.mem_cons_self "b c" List.mem_cons_self
    exact absurd admits (by decide)

/-- One parameter has one value. -/
theorem usesOnce_named (path : String) : named.UsesOnce path := by
  intro params captures constraint _
  obtain ⟨pieces, values, spelled, _, same⟩ := captures
  cases spelled.unique spelled_named
  have lengths := congrArg List.length same
  rw [List.length_map, List.length_zip] at lengths
  have one : params.length ≤ 1 := by
    rw [lengths]
    exact Nat.min_le_left _ _
  calc (params.map Prod.fst).count constraint.1
      ≤ (params.map Prod.fst).length := List.count_le_length
    _ = params.length := List.length_map _
    _ ≤ 1 := one

/-- The tree goes for the pattern with more literals, and does not come back. -/
def shadowing : List (RouteSpec × String) :=
  [namedCall, (.exactly "/\x7b*params\x7d" (.one .get), "rest")]

/-- Without the pattern whose rule is broken, the one behind it answers. -/
theorem Router.lookup_shadowing :
    (∀ binding, Bound (Router.empty.record shadowing.tail) binding ↔
        Bound (Router.empty.record shadowing) binding ∧ ¬ binding.Violates "/a/b c") ∧
      (Router.empty.routeAll shadowing).lookup .get "/a/b c" = .notFound ∧
      (Router.empty.routeAll shadowing.tail).lookup .get "/a/b c" =
        .found "rest" [("params", "a/b c")] := by
  let rest : Binding String := ⟨.only .get, "/\x7b*params\x7d", ⟨"rest", []⟩⟩
  have whole : Router.empty.record shadowing = [⟨named, true⟩, ⟨rest, true⟩] := by decide +kernel
  have reduced : Router.empty.record shadowing.tail = [⟨rest, true⟩] := by decide +kernel
  refine ⟨?_, by decide +kernel, by decide +kernel⟩
  rw [whole, reduced]
  exact bound_single_iff_pair violates_named (Binding.not_violates_of_free rfl _)

/-- The literal text stands in front of the pattern whose rule is broken. -/
def standing : List (RouteSpec × String) :=
  [namedCall, (.exactly "/a/b c" (.one .get), "plain")]

/-- A rule that only the pattern behind breaks makes no difference. -/
theorem Router.lookup_standing :
    (Router.empty.routeAll standing).lookup .get "/a/b c" =
      (Router.empty.routeAll standing.tail).lookup .get "/a/b c" := by
  let plain : Binding String := ⟨.only .get, "/a/b c", ⟨"plain", []⟩⟩
  have whole : Router.empty.record standing = [⟨named, true⟩, ⟨plain, true⟩] := by
    decide +kernel
  have reduced : Router.empty.record standing.tail = [⟨plain, true⟩] := by decide +kernel
  have keeps : ¬ plain.Violates "/a/b c" := Binding.not_violates_of_free rfl _
  have spelledPlain : Piece.Spelled "/a/b c"
      [.literal 0x2f, .literal 0x61, .literal 0x2f, .literal 0x62, .literal 0x20,
        .literal 0x63] :=
    Piece.spelled_of_read rfl rfl
  refine (Router.lookup_without_violating standing standing.tail ?_ ?_ (uncut_of_regular ?_)
    (uncut_of_regular ?_) "/a/b c" ?_ ?_ ?_ .get).1
  · intro call member
    simp only [standing, namedCall, List.tail_cons, List.mem_append, List.mem_cons,
      List.not_mem_nil, or_false] at member
    rcases member with (rfl | rfl) | rfl
    · exact ⟨"a/\x7bname\x7d", by decide⟩
    · exact ⟨"a/b c", by decide⟩
    · exact ⟨"a/b c", by decide⟩
  · rw [whole, reduced]
    decide
  · rw [whole]
    decide +kernel
  · rw [reduced]
    decide +kernel
  · rw [whole, reduced]
    exact bound_single_iff_pair violates_named keeps
  · rw [whole]
    intro binding bound
    rcases bound_pair_iff.mp bound with rfl | rfl
    · exact usesOnce_named _
    · intro params _ constraint member
      exact absurd member List.not_mem_nil
  · rw [whole]
    intro broken kept boundBroken boundKept _ violates satisfies pieces others spelled spelledToo
    have first : broken = named := (bound_pair_iff.mp boundBroken).resolve_right fun same =>
      keeps (same ▸ violates)
    have second : kept = plain := (bound_pair_iff.mp boundKept).resolve_left fun same =>
      satisfies.2 (same ▸ violates_named)
    subst first second
    cases spelled.unique spelled_named
    cases spelledToo.unique spelledPlain
    constructor
    · exact .cons _ (.cons _ (.cons _ (.param _ _ _)))
    · exact Place.not_overtakes_text [0x2f, 0x61, 0x2f, 0x62, 0x20, 0x63]

end FunctionGateway.Routing
