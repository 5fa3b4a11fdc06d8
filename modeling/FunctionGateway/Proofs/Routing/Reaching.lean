import FunctionGateway.Proofs.Http.Token
import FunctionGateway.Proofs.Http.Wording
import FunctionGateway.Proofs.Routing.Allowed
import FunctionGateway.Proofs.Routing.Showing

/-!
# The methods that reach a path

Which methods reach a handler with some path is a property of the path and of the router.  A
refusal tells it in full: it lists these methods if there are any, and says that there is
nothing at the path if there are none.
-/

namespace FunctionGateway

open FunctionGateway.Http
open FunctionGateway.Text

namespace Routing

variable {α : Type}

/-- A request with this path and this method is led to a handler. -/
def Router.Reaches (router : Router α) (path : String) (method : Method) : Prop :=
  ∃ request : Request, request.path = path ∧ request.method = method ∧
    ∃ handler params, router.resolve request = .found handler params

namespace Router

/-- A handler is found if the tree of the method or the one for any method matches. -/
theorem exists_found_iff (router : Router α) (method : Method) (path : String) :
    (∃ handler params, router.lookup method path = .found handler params) ↔
      (matched (router.methodTree method) path).isSome = true ∨
        (matched router.any path).isSome = true := by
  rw [lookup]
  cases own : matched (router.methodTree method) path with
  | some pair => exact iff_of_true ⟨pair.1, pair.2, rfl⟩ (Or.inl rfl)
  | none =>
      cases anyway : matched router.any path with
      | some pair => exact iff_of_true ⟨pair.1, pair.2, rfl⟩ (Or.inr rfl)
      | none =>
          refine iff_of_false ?_ (by simp)
          rintro ⟨handler, params, found⟩
          cases others : router.otherMethods method path with
          | nil =>
              simp only [others] at found
              exact nomatch found
          | cons first rest =>
              simp only [others] at found
              exact nomatch found

theorem reaches_iff (router : Router α) (path : String) (method : Method) :
    router.Reaches path method ↔
      (matched (router.methodTree method) (Percent.decode path)).isSome = true ∨
        (matched router.any (Percent.decode path)).isSome = true := by
  rw [← exists_found_iff]
  constructor
  · rintro ⟨request, rfl, rfl, found⟩
    exact found
  · intro found
    let request : Request := { method, target := ⟨path, none⟩, fields := [], body := [] }
    exact ⟨request, rfl, rfl, found⟩

/-- A path and a method that reach nothing are answered by the other methods' trees. -/
theorem resolve_of_not_reaches {router : Router α} {request : Request}
    (unreached : ¬ router.Reaches request.path request.method) :
    router.resolve request =
      match router.otherMethods request.method (Percent.decode request.path) with
      | [] => .notFound
      | allowed => .methodNotAllowed allowed := by
  rw [reaches_iff, not_or, Bool.not_eq_true, Bool.not_eq_true, Option.isSome_eq_false_iff,
    Option.isSome_eq_false_iff, Option.isNone_iff_eq_none, Option.isNone_iff_eq_none] at unreached
  cases others : router.otherMethods request.method (Percent.decode request.path) with
  | nil => simp [resolve, lookup, unreached.1, unreached.2, others]
  | cons first rest => simp [resolve, lookup, unreached.1, unreached.2, others]

/-- To a method that does not reach a path, the methods that do are shown. -/
theorem mem_otherMethods_iff_reaches {router : Router α} (keyed : router.Keyed)
    {path : String} {method : Method} (unreached : ¬ router.Reaches path method)
    (other : Method) :
    other ∈ router.otherMethods method (Percent.decode path) ↔ router.Reaches path other := by
  have noneAnyway : ¬ (matched router.any (Percent.decode path)).isSome = true :=
    fun matches_ => unreached ((reaches_iff router path method).mpr (Or.inr matches_))
  rw [mem_otherMethods_iff keyed, reaches_iff, or_iff_left noneAnyway]
  refine and_iff_right_of_imp ?_
  rintro reached rfl
  exact unreached ((reaches_iff router path other).mpr (Or.inl reached))

end Router

/-! ## The field that lists them -/

theorem isValue_intercalate (methods : List Method) :
    (encodeUtf8 (String.intercalate ", " (methods.map Method.token))).all isValueByte = true := by
  induction methods with
  | nil => rfl
  | cons first rest inductionHypothesis =>
      cases rest with
      | nil =>
          rw [List.map_cons, List.map_nil, String.intercalate_singleton]
          exact first.isValue_token
      | cons second others =>
          rw [List.map_cons, List.map_cons, String.intercalate_cons_cons, encodeUtf8_append,
            encodeUtf8_append, List.all_append, List.all_append, first.isValue_token]
          exact inductionHypothesis

/-- The answer that lists methods has them all in one field. -/
theorem methodNotAllowed_eq (allowed : List Method) :
    ∃ value : FieldValue,
      value.bytes = encodeUtf8 (String.intercalate ", " (allowed.map Method.token)) ∧
        methodNotAllowed allowed =
          { status := .methodNotAllowed, fields := [(.allow, value)], body := [] } := by
  have isValue := isValue_intercalate allowed
  refine ⟨⟨_, isValue⟩, rfl, ?_⟩
  rw [methodNotAllowed, FieldValue.ofBytes?, dif_pos isValue]
  rfl

end Routing

open FunctionGateway.Routing

variable {α φ σ : Type}

/-- Whatever was bound before, the answers to a path under all methods agree on which of them
reach a handler.  A method that does is handed to a handler.  A method that does not is told
exactly those that do, each once and in the order of their bytes, or that there is nothing at
the path; and then the answer is there at once, and nothing else has happened. -/
theorem Routing.Router.dispatch_tells_reaching (calls : List (RouteSpec × Service α))
    (backend : Backend α φ σ) (request : Request) (world : World σ) :
    let router := Router.empty.routeAll calls
    let reaching := router.Reaches request.path
    (reaching request.method ↔
        ∃ service params, router.resolve request = .found service params ∧
          dispatch backend router request world =
            service.call backend (request.withParams params) world) ∧
      (¬ reaching request.method → (∃ method, reaching method) →
        ∃ (allowed : List Method) (value : FieldValue),
          (∀ method, method ∈ allowed ↔ reaching method) ∧
            allowed.Pairwise (fun first second =>
              encodeUtf8 first.token < encodeUtf8 second.token) ∧
            value.bytes = encodeUtf8 (String.intercalate ", " (allowed.map Method.token)) ∧
            dispatch backend router request world =
              (.done { status := .methodNotAllowed, fields := [(.allow, value)], body := [] },
                world)) ∧
      ((∀ method, ¬ reaching method) →
        notFound.IsNowhere ∧ dispatch backend router request world = (.done notFound, world)) := by
  intro router reaching
  have keyed : router.Keyed := Router.Keyed.start.routeAll
  refine ⟨?_, ?_, ?_⟩
  · constructor
    · intro reached
      obtain ⟨service, params, found⟩ :=
        (router.exists_found_iff request.method (Percent.decode request.path)).mpr
          ((router.reaches_iff request.path request.method).mp reached)
      have resolved : router.resolve request = .found service params := found
      exact ⟨service, params, resolved, by rw [dispatch, resolved]⟩
    · rintro ⟨service, params, found, _⟩
      exact ⟨request, rfl, rfl, service, params, found⟩
  · rintro unreached ⟨method, reached⟩
    have listed := Router.mem_otherMethods_iff_reaches keyed unreached
    have resolved := Router.resolve_of_not_reaches unreached
    have sorted := Router.pairwise_otherMethods keyed request.method (Percent.decode request.path)
    have nonempty := List.ne_nil_of_mem ((listed method).mpr reached)
    generalize router.otherMethods request.method (Percent.decode request.path) = allowed
      at listed resolved sorted nonempty
    obtain ⟨value, bytes, answer⟩ := methodNotAllowed_eq allowed
    refine ⟨allowed, value, listed, sorted.imp Method.encodeUtf8_lt, bytes, ?_⟩
    obtain ⟨first, rest, rfl⟩ := List.exists_cons_of_ne_nil nonempty
    rw [dispatch, resolved, ← answer]
  · intro silent
    have listed := Router.mem_otherMethods_iff_reaches keyed (silent request.method)
    have nothing : router.otherMethods request.method (Percent.decode request.path) = [] :=
      List.eq_nil_iff_forall_not_mem.mpr fun other member => silent other ((listed other).mp member)
    refine ⟨notFound_isNowhere, ?_⟩
    rw [dispatch, Router.resolve_of_not_reaches (silent request.method), nothing]

end FunctionGateway
