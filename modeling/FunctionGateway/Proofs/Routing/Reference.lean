import FunctionGateway.Proofs.Routing.Attempts
import FunctionGateway.Proofs.Routing.Search

/-!
# Routing without trees

A router is seen here as nothing but the set of its bindings.  Which of them answers a request is
told by the patterns alone: those that match the whole path and are still in, among them
the one with a literal where they first differ, if its rules hold.

The relation `out` says which pattern puts which other one out on a path.  Where nothing puts
anything out, this is the reference one would like to have.  The trees follow it with
overtaking for `out`.
-/

namespace FunctionGateway.Routing

open FunctionGateway.Http
open FunctionGateway.Text

variable {α : Type}

section Reference

variable (out : List Place → List Place → Bytes → Prop) (bindings : Binding α → Prop)

/-- A binding of a tree that matches a path and is not put out by another one. -/
structure Stays (scope : Scope) (path : Bytes) (binding : Binding α) (pieces : List Piece)
    (values : List Bytes) : Prop where
  bound : bindings binding
  located : binding.scope = scope
  spelled : Piece.Spelled binding.source pieces
  fits : Place.Fits (pieces.map Piece.place) path values
  remains : ∀ other others, bindings other → other.scope = scope →
    Piece.Spelled other.source others →
      ¬ out (others.map Piece.place) (pieces.map Piece.place) path

/-- The binding that comes first among those that stay. -/
structure Chosen (scope : Scope) (path : Bytes) (binding : Binding α) (pieces : List Piece)
    (values : List Bytes) : Prop extends Stays out bindings scope path binding pieces values where
  first : ∀ other others taken, Stays out bindings scope path other others taken →
    other = binding ∨ Place.Precedes (pieces.map Piece.place) (others.map Piece.place)

/-- One tree answers a path with a handler and the parameters captured for it. -/
def Answered (scope : Scope) (path : String) (handler : α) (params : List (String × String)) :
    Prop :=
  ∃ binding pieces values, Chosen out bindings scope (encodeUtf8 path) binding pieces values ∧
    params.map (fun (name, value) => (encodeUtf8 name, encodeUtf8 value)) =
      (pieces.filterMap Piece.name?).zip values ∧
    binding.endpoint.admits params = true ∧ binding.endpoint.handler = handler

def Silent (scope : Scope) (path : String) : Prop :=
  ∀ handler params, ¬ Answered out bindings scope path handler params

/-- What a set of bindings has for a method and a decoded path. -/
inductive Reference (method : Method) (path : String) : Router.Lookup α → Prop
  | own (handler : α) (params : List (String × String)) :
      Answered out bindings (.only method) path handler params →
      Reference method path (.found handler params)
  | any (handler : α) (params : List (String × String)) :
      Silent out bindings (.only method) path →
      Answered out bindings .any path handler params →
      Reference method path (.found handler params)
  | others (allowed : List Method) :
      Silent out bindings (.only method) path →
      Silent out bindings .any path →
      allowed ≠ [] →
      allowed.Pairwise (fun first second => first.token < second.token) →
      (∀ other, other ∈ allowed ↔ other ≠ method ∧ ¬ Silent out bindings (.only other) path) →
      Reference method path (.methodNotAllowed allowed)
  | nowhere :
      (∀ other, Silent out bindings (.only other) path) →
      Silent out bindings .any path →
      Reference method path .notFound

end Reference

/-- No refused pattern takes the path away from a binding that would stay without it. -/
def Undisturbed (log : List (Attempt α)) (path : String) : Prop :=
  ∀ attempt ∈ log, attempt.accepted = false →
    ∀ winner, Piece.read? attempt.source = .ok winner →
      ∀ binding pieces values,
        Stays Place.Overtakes (Bound log) attempt.scope (encodeUtf8 path) binding pieces values →
          ¬ Place.Overtakes (winner.map Piece.place) (pieces.map Piece.place) (encodeUtf8 path)

/-! ## What a binding reads as -/

/-- A regular binding with the pattern and the pieces that its text stands for. -/
structure Binding.Reads (binding : Binding α) (pattern : Pattern) (pieces : List Piece) :
    Prop where
  read : Pattern.read? binding.source = .ok pattern
  plain : pattern.route.plain = true
  spelled : Piece.Spelled binding.source pieces
  spaced : Piece.spaced false pieces = true
  places : pattern.route.places = pieces.map Piece.place
  names : pattern.params ++ pattern.route.restName = pieces.filterMap Piece.name?

theorem Pattern.proper {source : String} {pattern : Pattern}
    (read : Pattern.read? source = .ok pattern) : pattern.route.Proper := by
  obtain ⟨pieces, _, rfl⟩ := Pattern.read?_eq_ok read
  exact Route.proper_ofPieces pieces

theorem Tracks.reads {trees : Scope → PathTree (Endpoint α)} {log : List (Attempt α)}
    (tracks : Tracks trees log) {binding : Binding α} (bound : Bound log binding) :
    ∃ pattern pieces, binding.Reads pattern pieces := by
  obtain ⟨pattern, read, plain⟩ := tracks.regular binding bound
  obtain ⟨pieces, spelled, spaced, places, names⟩ := Pattern.spelled read plain
  exact ⟨pattern, pieces, read, plain, spelled, spaced, places, names⟩

theorem proper_of_tried {log : List (Attempt α)} {scope : Scope} :
    ∀ route, Tried log scope route → route.Proper := by
  rintro _ ⟨_, _, _, pattern, read, rfl⟩
  exact Pattern.proper read

/-- A regular route divides a path in one way only. -/
theorem Route.fits_unique {route : Route} (proper : route.Proper) (regular : route.plain = true)
    {path : Bytes} {first second : List Bytes} (left : Place.Fits route.places path first)
    (right : Place.Fits route.places path second) : first = second := by
  induction route generalizing path first second with
  | stop =>
      rw [(Place.fits_nil_iff.mp left).2, (Place.fits_nil_iff.mp right).2]
  | literal byte next inductionHypothesis =>
      obtain ⟨_, rfl, further⟩ := Place.fits_literal_iff.mp left
      obtain ⟨_, same, other⟩ := Place.fits_literal_iff.mp right
      cases same
      exact inductionHypothesis proper regular further other
  | param =>
      rw [(Route.fits_param_iff.mp left).2.2, (Route.fits_param_iff.mp right).2.2]
  | paramThen suffix next inductionHypothesis =>
      obtain ⟨value, after, others, _, plain, rfl, rfl, further⟩ :=
        Route.fits_paramThen_iff.mp left
      obtain ⟨taken, rest, more, _, plainTaken, same, rfl, other⟩ :=
        Route.fits_paramThen_iff.mp right
      obtain ⟨rfl, rfl⟩ := tail_unique proper.2.1 plain plainTaken (proper.last further)
        (proper.last other) same
      rw [inductionHypothesis proper.2.2.2 regular further other]
  | remainder name =>
      rw [(Place.fits_remainder_iff.mp left).2.2, (Place.fits_remainder_iff.mp right).2.2]
  | crowded lead spelled next => exact nomatch regular
  | stray => exact nomatch regular

/-! ## One tree -/

section Tree

variable {trees : Scope → PathTree (Endpoint α)} {log : List (Attempt α)} {scope : Scope}
  {path : String}

theorem Tracks.bound_of_reads (tracks : Tracks trees log) {binding : Binding α}
    {pattern : Pattern} {pieces : List Piece} (bound : Bound log binding)
    (reads : binding.Reads pattern pieces) :
    (trees binding.scope).root.bound pattern.route = some ⟨pattern.params, binding.endpoint⟩ :=
  (tracks.bound _ _ _).mpr ⟨binding, bound, rfl, pattern, reads.read, rfl, rfl⟩

/-- A binding that stays is overtaken by nothing that was tried. -/
theorem Stays.not_overtaken (tracks : Tracks trees log) (undisturbed : Undisturbed log path)
    {binding : Binding α} {pattern : Pattern} {pieces : List Piece} {values : List Bytes}
    (stays : Stays Place.Overtakes (Bound log) scope (encodeUtf8 path) binding pieces values)
    (reads : binding.Reads pattern pieces) :
    ¬ Overtaken (Tried log scope) pattern.route (encodeUtf8 path) := by
  rintro ⟨_, ⟨attempt, member, rfl, other, read, rfl⟩, overtakes⟩
  rw [reads.places] at overtakes
  cases accepted : attempt.accepted with
  | true =>
      have bound : Bound log attempt.toBinding := ⟨attempt, member, accepted, rfl⟩
      obtain ⟨own, others, readsOther⟩ := tracks.reads bound
      cases read.symm.trans readsOther.read
      rw [readsOther.places] at overtakes
      exact stays.remains attempt.toBinding others bound rfl readsOther.spelled overtakes
  | false =>
      obtain ⟨winner, readWinner, rfl⟩ := Pattern.read?_eq_ok read
      exact undisturbed attempt member accepted winner readWinner binding pieces values stays
        (Route.overtakes_ofPieces overtakes)

/-- What a search finds stays. -/
theorem Tracks.stays (tracks : Tracks trees log) {binding : Binding α} {pattern : Pattern}
    {pieces : List Piece} {values : List Bytes} (bound : Bound log binding)
    (located : binding.scope = scope) (reads : binding.Reads pattern pieces)
    (fits : Place.Fits pattern.route.places (encodeUtf8 path) values)
    (unbeaten : ∀ other rival, (trees scope).root.bound other = some rival →
      ¬ Place.Overtakes other.places pattern.route.places (encodeUtf8 path)) :
    Stays Place.Overtakes (Bound log) scope (encodeUtf8 path) binding pieces values where
  bound := bound
  located := located
  spelled := reads.spelled
  fits := reads.places ▸ fits
  remains := by
    rintro other others boundOther rfl spelled overtakes
    obtain ⟨own, read, readsOther⟩ := tracks.reads boundOther
    cases readsOther.spelled.unique spelled
    rw [← readsOther.places, ← reads.places] at overtakes
    exact unbeaten _ _ (tracks.bound_of_reads boundOther readsOther) overtakes

theorem encodeUtf8_textOf {bytes : Bytes} (isText : IsText bytes) :
    encodeUtf8 (PathTree.textOf bytes) = bytes := by
  obtain ⟨text, rfl⟩ := isText
  rw [PathTree.textOf, decodeUtf8?_encodeUtf8]
  rfl

/-- The parameters of a capture, as the texts of their bytes. -/
def textsOf (names values : List Bytes) : List (String × String) :=
  (names.zip values).map fun (name, value) => (PathTree.textOf name, PathTree.textOf value)

/-- The names and values of a match are texts. -/
theorem Binding.Reads.encode_texts {binding : Binding α} {pattern : Pattern}
    {pieces : List Piece} {values : List Bytes} (reads : binding.Reads pattern pieces)
    (fits : Place.Fits (pieces.map Piece.place) (encodeUtf8 path) values) :
    (textsOf (pieces.filterMap Piece.name?) values).map
        (fun (name, value) => (encodeUtf8 name, encodeUtf8 value)) =
      (pieces.filterMap Piece.name?).zip values := by
  have source := @Glyph.isText_read [] _ ⟨binding.source, rfl⟩
  have names := reads.spelled.isText_names source
  have texts := @Piece.Spells.isText_values _ _ reads.spelled [] _ _ _ source ⟨path, rfl⟩
    reads.spaced fits
  rw [textsOf, List.map_map]
  conv => rhs; rw [← List.map_id ((pieces.filterMap Piece.name?).zip values)]
  refine List.map_congr_left ?_
  rintro ⟨name, value⟩ member
  obtain ⟨inNames, inValues⟩ := List.of_mem_zip member
  simp only [Function.comp, encodeUtf8_textOf (names name inNames),
    encodeUtf8_textOf (texts value inValues), id]

/-- Encoding loses nothing of the parameters. -/
theorem params_eq_of_encoded {first second : List (String × String)}
    (same : first.map (fun (name, value) => (encodeUtf8 name, encodeUtf8 value)) =
      second.map fun (name, value) => (encodeUtf8 name, encodeUtf8 value)) : first = second := by
  refine (List.map_inj_right ?_).mp same
  rintro ⟨name, value⟩ ⟨other, taken⟩ equal
  obtain ⟨sameName, sameValue⟩ := Prod.mk.inj equal
  rw [encodeUtf8_injective sameName, encodeUtf8_injective sameValue]

/-- What a search in a tree answers, told by the bindings in it. -/
theorem Tracks.find_cases (tracks : Tracks trees log) (undisturbed : Undisturbed log path)
    (scope : Scope) :
    ((trees scope).find path = none ∧
        ∀ binding pieces values, ¬ Stays Place.Overtakes (Bound log) scope (encodeUtf8 path)
          binding pieces values) ∨
      ∃ binding pieces values, Chosen Place.Overtakes (Bound log) scope (encodeUtf8 path)
          binding pieces values ∧
        (trees scope).find path =
          some ⟨binding.endpoint, textsOf (pieces.filterMap Piece.name?) values⟩ ∧
        (textsOf (pieces.filterMap Piece.name?) values).map
            (fun (name, value) => (encodeUtf8 name, encodeUtf8 value)) =
          (pieces.filterMap Piece.name?).zip values := by
  have answers := Node.answers proper_of_tried (tracks.stems scope) (encodeUtf8 path)
  rw [PathTree.find]
  cases found : (trees scope).root.find (encodeUtf8 path) with
  | none =>
      rw [found] at answers
      refine Or.inl ⟨rfl, fun binding pieces values stays => ?_⟩
      obtain ⟨pattern, _, reads⟩ := tracks.reads stays.bound
      cases reads.spelled.unique stays.spelled
      have bound := tracks.bound_of_reads stays.bound reads
      rw [stays.located] at bound
      exact stays.not_overtaken tracks undisturbed reads
        (answers _ _ values bound (reads.places ▸ stays.fits))
  | some capture =>
      rw [found] at answers
      obtain ⟨_, leaf, values, boundRoute, fits, rfl, unbeaten, best⟩ := answers
      obtain ⟨binding, bound, located, pattern, read, rfl, rfl⟩ :=
        (tracks.bound _ _ _).mp boundRoute
      obtain ⟨_, pieces, reads⟩ := tracks.reads bound
      cases read.symm.trans reads.read
      have stays := tracks.stays bound located reads fits unbeaten
      refine Or.inr ⟨binding, pieces, values, ⟨stays, ?_⟩, ?_, reads.encode_texts stays.fits⟩
      · intro other others taken staysOther
        obtain ⟨own, _, readsOther⟩ := tracks.reads staysOther.bound
        cases readsOther.spelled.unique staysOther.spelled
        have boundOther := tracks.bound_of_reads staysOther.bound readsOther
        have survives := staysOther.not_overtaken tracks undisturbed readsOther
        rw [staysOther.located] at boundOther
        rcases best _ _ taken boundOther (readsOther.places ▸ staysOther.fits) survives with
          same | before
        · exact Or.inl (tracks.once staysOther.bound bound
            ⟨staysOther.located, own, readsOther.read, same, rfl⟩
            ⟨located, pattern, read, rfl, rfl⟩)
        · exact Or.inr (reads.places ▸ readsOther.places ▸ before)
      · simp only [Option.map_some, Leaf.along, reads.names, textsOf]

/-- Two bindings that come first in one tree are one. -/
theorem Tracks.chosen_unique (tracks : Tracks trees log) {first second : Binding α}
    {pieces others : List Piece} {values taken : List Bytes}
    (left : Chosen Place.Overtakes (Bound log) scope (encodeUtf8 path) first pieces values)
    (right : Chosen Place.Overtakes (Bound log) scope (encodeUtf8 path) second others taken) :
    first = second ∧ pieces = others ∧ values = taken := by
  have same : first = second := by
    rcases left.first second others taken right.toStays with same | before
    · exact same.symm
    · rcases right.first first pieces values left.toStays with same | after
      · exact same
      · exact absurd after before.asymm
  subst same
  obtain ⟨pattern, _, reads⟩ := tracks.reads left.bound
  cases reads.spelled.unique left.spelled
  cases reads.spelled.unique right.spelled
  exact ⟨rfl, rfl, Route.fits_unique (Pattern.proper reads.read) reads.plain
    (reads.places ▸ left.fits) (reads.places ▸ right.fits)⟩

/-- A tree answers a path just as the bindings in it do. -/
theorem Tracks.matched_iff (tracks : Tracks trees log) (undisturbed : Undisturbed log path)
    (handler : α) (params : List (String × String)) :
    Router.matched (trees scope) path = some (handler, params) ↔
      Answered Place.Overtakes (Bound log) scope path handler params := by
  rcases tracks.find_cases undisturbed scope with
    ⟨none, nothing⟩ | ⟨binding, pieces, values, chosen, found, texts⟩
  · rw [Router.matched, none]
    constructor
    · exact nofun
    · rintro ⟨binding, pieces, values, chosen, _⟩
      exact absurd chosen.toStays (nothing binding pieces values)
  · rw [Router.matched, found]
    constructor
    · intro matched
      simp only at matched
      split at matched
      · rename_i admits
        cases matched
        exact ⟨binding, pieces, values, chosen, texts, admits, rfl⟩
      · exact nomatch matched
    · rintro ⟨other, others, taken, chosenOther, encoded, admits, rfl⟩
      obtain ⟨rfl, rfl, rfl⟩ := tracks.chosen_unique chosen chosenOther
      cases params_eq_of_encoded (texts.trans encoded.symm)
      exact if_pos admits

theorem Tracks.matched_isSome_iff (tracks : Tracks trees log)
    (undisturbed : Undisturbed log path) :
    (Router.matched (trees scope) path).isSome = true ↔
      ¬ Silent Place.Overtakes (Bound log) scope path := by
  rw [Option.isSome_iff_exists]
  constructor
  · rintro ⟨⟨handler, params⟩, matched⟩ silent
    exact silent handler params ((tracks.matched_iff undisturbed handler params).mp matched)
  · intro heard
    cases matched : Router.matched (trees scope) path with
    | some answer => exact ⟨answer, rfl⟩
    | none =>
        refine absurd ?_ heard
        intro handler params answered
        rw [← tracks.matched_iff undisturbed, matched] at answered
        exact nomatch answered

end Tree

end FunctionGateway.Routing
