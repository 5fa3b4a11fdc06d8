import FunctionGateway.Proofs.Surface.Sending
import FunctionGateway.Proofs.Text.Splitting
import FunctionGateway.Proofs.Text.Spelling

/-!
# Paths that are handed on

A function is called through a path that holds its name and, behind it, any text.  However
this path is spelled in the target of a request, the handler in charge sees the name and
the text, with nothing decoded twice and nothing cut off.
-/

namespace FunctionGateway

open FunctionGateway.Http
open FunctionGateway.Routing
open FunctionGateway.Text

variable {α φ σ : Type}

/-! ## The path of a target -/

namespace Http.Target

theorem path_of_ofPath? {letters : List Char} {target : Target}
    (read : ofPath? letters = some target) :
    target.path = String.ofList ((beforeFragment letters).takeWhile (· ≠ '?')) := by
  rw [ofPath?] at read
  split at read
  · split at read
    · obtain rfl := Option.some.inj read
      rfl
    · split at read
      · obtain rfl := Option.some.inj read
        rfl
      · exact nomatch read
  · exact nomatch read

/-- What stands in front of the query and the fragment. -/
theorem takeWhile_beforeFragment {front behind : List Char}
    (inside : ∀ letter ∈ front, letter ≠ '?' ∧ letter ≠ '#')
    (cut : ∀ letter ∈ behind.head?, letter = '?' ∨ letter = '#') :
    (beforeFragment (front ++ behind)).takeWhile (· ≠ '?') = front := by
  have nothing : (beforeFragment behind).takeWhile (· ≠ '?') = [] := by
    cases behind with
    | nil => rfl
    | cons letter rest =>
        rcases cut letter rfl with rfl | rfl <;> simp [beforeFragment]
  have kept : beforeFragment (front ++ behind) = front ++ beforeFragment behind :=
    List.takeWhile_append_of_pos fun letter member => decide_eq_true (inside letter member).2
  rw [kept, List.takeWhile_append_of_pos, nothing, List.append_nil]
  exact fun letter member => decide_eq_true (inside letter member).1

/-- The path of a target goes on until the query or the fragment begins. -/
theorem path_of_ofString? {tail behind : String} {target : Target}
    (inside : ∀ letter ∈ tail.toList, letter ≠ '?' ∧ letter ≠ '#')
    (cut : ∀ letter ∈ behind.toList.head?, letter = '?' ∨ letter = '#')
    (read : ofString? ("/" ++ tail ++ behind) = some target) : target.path = "/" ++ tail := by
  have letters : ("/" ++ tail ++ behind).toList = '/' :: (tail.toList ++ behind.toList) := by
    simp only [String.toList_append]
    rfl
  rw [ofString?, letters] at read
  split at read
  · exact nomatch read
  · rw [path_of_ofPath? read, ← List.cons_append,
      takeWhile_beforeFragment (List.forall_mem_cons.mpr ⟨by decide, inside⟩) cut]
    exact String.toList_inj.mp (by simp)

end Http.Target

namespace Surface

theorem exists_row_functionProxy :
    ∃ row ∈ table, row.capability = .functionProxy ∧ row.requiresAuth = false ∧
      row.route.template = "/function/\x7bname\x7d" := by
  decide

/-- Layers without a guard call the handler inside them. -/
theorem calls_within (backend : Backend α φ σ) (template : String) (deadline : Option Duration)
    (handler : α) (request : Request) (world : World (σ × Calls α)) :
    ((Service.counted template (within deadline (.handler handler))).call backend.recording request
        world).2.shared.2 = (handler, request) :: world.shared.2 := by
  cases deadline with
  | none => rfl
  | some limit =>
      rw [within, Layer.deadline]
      split <;> rfl

/-- Whatever the way in which a path of a function is spelled, its handler is called, and sees the
name and the text behind the name as they are meant. -/
theorem resolve_of_spells {capabilities : CapabilitySet (Service α)} {deadline : Option Duration}
    {auth : Option Credentials} {router : Router (Service α)}
    (bound : bind Router.empty capabilities deadline auth = (router, none))
    {name rest : String} (valid : isValidName name = true) (nonempty : rest ≠ "")
    {tail behind : String}
    (spells : Percent.Spells (encodeUtf8 tail) (encodeUtf8 ("function/" ++ name ++ "/" ++ rest)))
    (cut : ∀ letter ∈ behind.toList.head?, letter = '?' ∨ letter = '#')
    {request : Request}
    (received : Target.ofString? ("/" ++ tail ++ behind) = some request.target) :
    ∃ own, capabilities.get? .functionProxy = some own ∧
      router.resolve request =
        .found (.counted "/function/\x7bname\x7d" (within deadline own))
          [("name", name), ("params", rest)] ∧
      let seen := request.withParams [("name", name), ("params", rest)]
      seen.param? "name" = some name ∧ seen.param? "params" = some rest ∧
        ∀ handler, own = .handler handler →
          ∀ (backend : Backend α φ σ) (world : World (σ × Calls α)),
            (dispatch backend.recording router request world).2.shared.2 =
              (handler, seen) :: world.shared.2 := by
  have path : request.path = "/" ++ tail :=
    Target.path_of_ofString? spells.letter_ne cut received
  have decoded : Percent.decode request.path = "/function/" ++ name ++ "/" ++ rest := by
    have whole : Percent.Spells (encodeUtf8 ("/" ++ tail))
        (encodeUtf8 ("/" ++ ("function/" ++ name ++ "/" ++ rest))) := by
      rw [encodeUtf8_rooted, encodeUtf8_rooted]
      exact Percent.Spells.plain slash (by decide) spells
    rw [path, Percent.decode_of_spells whole]
    simp only [← String.append_assoc]
    rfl
  obtain ⟨own, filled⟩ := Option.isSome_iff_exists.mp
    (complete_of_bind bound .functionProxy (by decide))
  obtain ⟨row, listed, own?, unguarded, template⟩ := exists_row_functionProxy
  have applies : Applies capabilities request.method (Percent.decode request.path)
      (.slot row own) (some name) (some rest) := by
    refine ⟨Offered.slot row own listed (own? ▸ filled), ?_, ?_⟩
    · rw [Entry.methods, own?]
      rfl
    · rw [Entry.form, own?, decoded]
      exact PathForm.Has.rest "/function/" name rest valid nonempty
  have service : (Entry.slot row own).service deadline auth =
      .counted "/function/\x7bname\x7d" (within deadline own) := by
    rw [Entry.service, SurfaceRow.service, layers_apply_eq, template, unguarded]
    rfl
  have found := (resolve_iff_answers bound request _).mpr
    (Answers.found (.slot row own) (some name) (some rest) applies)
  rw [service] at found
  refine ⟨own, filled, found, PathForm.param?_name request (some name) (some rest),
    PathForm.param?_rest request (some name) (some rest), ?_⟩
  rintro handler rfl backend world
  rw [dispatch, found]
  exact calls_within backend "/function/\x7bname\x7d" deadline handler _ world

end Surface

end FunctionGateway
