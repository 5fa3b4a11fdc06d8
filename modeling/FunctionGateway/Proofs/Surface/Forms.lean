import FunctionGateway.Proofs.Routing.Settling
import FunctionGateway.Proofs.Surface.Binding

/-!
# Forms of documented paths

The paths of the surface are documented by their forms, without patterns: a path alone, or text
in front of a name, which may be left out or followed by a rest.  The routes bound for a form
serve the paths that have it, and no others.
-/

namespace FunctionGateway

open FunctionGateway.Http
open FunctionGateway.Routing
open FunctionGateway.Text

variable {α : Type}

/-! ## Forms of paths -/

/-- The form of the paths of a route: a path alone, or text in front of a name, where the name may
be left out, or be followed by `/` and any rest. -/
inductive PathForm where
  | exactly (path : String)
  | named (front : String)
  | optional (front : String)
  | suffixed (front : String)
deriving DecidableEq

namespace PathForm

/-- A path has a form, and shows a name and a rest or does not. -/
inductive Has : PathForm → String → Option String → Option String → Prop
  | exactly (path : String) : Has (.exactly path) path none none
  | named (front name : String) :
      isValidName name = true →
      Has (.named front) (front ++ name) (some name) none
  | bare (front : String) : Has (.optional front) front none none
  | filled (front name : String) :
      isValidName name = true →
      Has (.optional front) (front ++ name) (some name) none
  | whole (front name : String) :
      isValidName name = true →
      Has (.suffixed front) (front ++ name) (some name) none
  | divided (front name : String) :
      isValidName name = true →
      Has (.suffixed front) (front ++ name ++ "/") (some name) none
  | rest (front name rest : String) :
      isValidName name = true →
      rest ≠ "" →
      Has (.suffixed front) (front ++ name ++ "/" ++ rest) (some name) (some rest)

/-- The parameters of a path with this name and this rest. -/
def shown (name rest : Option String) : List (String × String) :=
  (name.map ("name", ·)).toList ++ (rest.map ("params", ·)).toList

/-- The specification of the routes of a form. -/
def route : PathForm → MethodSet → RouteSpec
  | .exactly path, methods => .exactly path methods
  | .named front, methods => Surface.named (front ++ "\x7bname\x7d") methods
  | .optional front, methods => (Surface.named (front ++ "\x7bname\x7d") methods).withOptionalTail
  | .suffixed front, methods => (Surface.named (front ++ "\x7bname\x7d") methods).withSuffixes

/-- The text of a form is literal, and one with an optional name is a path up to its last
`/`. -/
def Tidy : PathForm → Prop
  | .exactly path => Braceless path
  | .named front => Braceless front
  | .optional front =>
      Braceless front ∧ RouteSpec.headOf (front ++ "\x7bname\x7d") = front
  | .suffixed front => Braceless front

instance (form : PathForm) : Decidable form.Tidy := by
  cases form <;> unfold Tidy <;> infer_instance

/-! ## Forms and patterns -/

theorem admits_named (template : String) (methods : MethodSet) (name : String)
    (others : List (String × String)) :
    (Surface.named template methods).admits (("name", name) :: others) = isValidName name := by
  simp [Surface.named, RouteSpec.constrain, RouteSpec.exactly, RouteSpec.admits, Endpoint.admits,
    Constraint.admits]

theorem shows_front_iff {front : String} (braceless : Braceless front) {path : String}
    {params : List (String × String)} : Shows front path params ↔ path = front ∧ params = [] := by
  have split := @shows_append_iff front "" braceless [] spelled_nothing path params
  rw [String.append_empty] at split
  rw [split]
  constructor
  · rintro ⟨behind, rfl, showing⟩
    obtain ⟨rfl, rfl⟩ := shows_nothing_iff.mp showing
    exact ⟨String.append_empty, rfl⟩
  · rintro ⟨rfl, rfl⟩
    exact ⟨"", String.append_empty.symm, shows_nothing_iff.mpr ⟨rfl, rfl⟩⟩

theorem shows_front_name_iff {front : String} (braceless : Braceless front) {path : String}
    {params : List (String × String)} :
    Shows (front ++ "\x7bname\x7d") path params ↔
      ∃ name, Fills name ∧ path = front ++ name ∧ params = [("name", name)] := by
  rw [shows_append_iff braceless spelled_name]
  constructor
  · rintro ⟨name, rfl, showing⟩
    obtain ⟨fills, rfl⟩ := shows_name_iff.mp showing
    exact ⟨name, fills, rfl, rfl⟩
  · rintro ⟨name, fills, rfl, rfl⟩
    exact ⟨name, rfl, shows_name_iff.mpr ⟨fills, rfl⟩⟩

theorem shows_front_divided_iff {front : String} (braceless : Braceless front) {path : String}
    {params : List (String × String)} :
    Shows (front ++ "\x7bname\x7d" ++ "/") path params ↔
      ∃ name, Fills name ∧ path = front ++ name ++ "/" ∧ params = [("name", name)] := by
  rw [String.append_assoc]
  change Shows (front ++ "\x7bname\x7d/") path params ↔ _
  rw [shows_append_iff braceless spelled_divided]
  constructor
  · rintro ⟨_, rfl, showing⟩
    obtain ⟨name, fills, rfl, rfl⟩ := shows_divided_iff.mp showing
    exact ⟨name, fills, String.append_assoc.symm, rfl⟩
  · rintro ⟨name, fills, rfl, rfl⟩
    exact ⟨_, String.append_assoc, shows_divided_iff.mpr ⟨name, fills, rfl, rfl⟩⟩

theorem shows_front_rest_iff {front : String} (braceless : Braceless front) {path : String}
    {params : List (String × String)} :
    Shows (front ++ "\x7bname\x7d" ++ "/\x7b*params\x7d") path params ↔
      ∃ name rest, Fills name ∧ rest ≠ "" ∧ path = front ++ name ++ "/" ++ rest ∧
        params = [("name", name), ("params", rest)] := by
  rw [String.append_assoc]
  change Shows (front ++ "\x7bname\x7d/\x7b*params\x7d") path params ↔ _
  rw [shows_append_iff braceless spelled_rest]
  constructor
  · rintro ⟨_, rfl, showing⟩
    obtain ⟨name, rest, fills, nonempty, rfl, rfl⟩ := shows_rest_iff.mp showing
    exact ⟨name, rest, fills, nonempty, by simp only [String.append_assoc], rfl⟩
  · rintro ⟨name, rest, fills, nonempty, rfl, rfl⟩
    exact ⟨name ++ "/" ++ rest, by simp only [String.append_assoc],
      shows_rest_iff.mpr ⟨name, rest, fills, nonempty, rfl, rfl⟩⟩

theorem methods_route (form : PathForm) (methods : MethodSet) :
    (form.route methods).methods = methods := by
  cases form <;> rfl

theorem has_of_serves {form : PathForm} (tidy : form.Tidy) {methods : MethodSet}
    {method : Method} {path : String} {params : List (String × String)}
    (serves : (form.route methods).Serves method path params) :
    ∃ name rest, form.Has path name rest ∧ params = shown name rest := by
  obtain ⟨_, ⟨pattern, member, showing⟩, admitted⟩ := serves
  cases form with
  | exactly own =>
      rw [List.mem_singleton.mp member] at showing
      obtain ⟨rfl, rfl⟩ := (shows_front_iff tidy).mp showing
      exact ⟨none, none, Has.exactly path, rfl⟩
  | named front =>
      rw [List.mem_singleton.mp member] at showing
      obtain ⟨name, _, rfl, rfl⟩ := (shows_front_name_iff tidy).mp showing
      have valid := (admits_named _ methods name []).symm.trans admitted
      exact ⟨some name, none, Has.named front name valid, rfl⟩
  | optional front =>
      obtain ⟨braceless, head⟩ := tidy
      have listed :
          pattern ∈ [RouteSpec.headOf (front ++ "\x7bname\x7d"), front ++ "\x7bname\x7d"] :=
        member
      rw [head, List.mem_cons, List.mem_singleton] at listed
      rcases listed with rfl | rfl
      · obtain ⟨rfl, rfl⟩ := (shows_front_iff braceless).mp showing
        exact ⟨none, none, Has.bare path, rfl⟩
      · obtain ⟨name, _, rfl, rfl⟩ := (shows_front_name_iff braceless).mp showing
        have valid := (admits_named _ methods name []).symm.trans admitted
        exact ⟨some name, none, Has.filled front name valid, rfl⟩
  | suffixed front =>
      have listed : pattern ∈ [front ++ "\x7bname\x7d", front ++ "\x7bname\x7d" ++ "/",
          front ++ "\x7bname\x7d" ++ "/\x7b*params\x7d"] := member
      rw [List.mem_cons, List.mem_cons, List.mem_singleton] at listed
      rcases listed with rfl | rfl | rfl
      · obtain ⟨name, _, rfl, rfl⟩ := (shows_front_name_iff tidy).mp showing
        have valid := (admits_named _ methods name []).symm.trans admitted
        exact ⟨some name, none, Has.whole front name valid, rfl⟩
      · obtain ⟨name, _, rfl, rfl⟩ := (shows_front_divided_iff tidy).mp showing
        have valid := (admits_named _ methods name []).symm.trans admitted
        exact ⟨some name, none, Has.divided front name valid, rfl⟩
      · obtain ⟨name, rest, _, nonempty, rfl, rfl⟩ := (shows_front_rest_iff tidy).mp showing
        have valid := (admits_named _ methods name [("params", rest)]).symm.trans admitted
        exact ⟨some name, some rest, Has.rest front name rest valid nonempty, rfl⟩

theorem serves_of_has {form : PathForm} (tidy : form.Tidy) {methods : MethodSet}
    {method : Method} (asked : methods.allows method = true) {path : String}
    {name rest : Option String} (has : form.Has path name rest) :
    (form.route methods).Serves method path (shown name rest) := by
  cases has with
  | exactly own =>
      refine ⟨asked, ⟨path, List.mem_singleton.mpr rfl, ?_⟩, rfl⟩
      exact (shows_front_iff tidy).mpr ⟨rfl, rfl⟩
  | named front name valid =>
      refine ⟨asked, ⟨_, List.mem_singleton.mpr rfl, ?_⟩, (admits_named _ _ name []).trans valid⟩
      exact (shows_front_name_iff tidy).mpr ⟨name, fills_of_isValidName valid, rfl, rfl⟩
  | bare front =>
      refine ⟨asked, ⟨_, List.mem_cons_self, ?_⟩, rfl⟩
      change Shows (RouteSpec.headOf (path ++ "\x7bname\x7d")) path []
      rw [tidy.2]
      exact (shows_front_iff tidy.1).mpr ⟨rfl, rfl⟩
  | filled front name valid =>
      refine ⟨asked, ⟨_, List.mem_cons_of_mem _ List.mem_cons_self, ?_⟩,
        (admits_named _ _ name []).trans valid⟩
      exact (shows_front_name_iff tidy.1).mpr ⟨name, fills_of_isValidName valid, rfl, rfl⟩
  | whole front name valid =>
      refine ⟨asked, ⟨_, List.mem_cons_self, ?_⟩, (admits_named _ _ name []).trans valid⟩
      exact (shows_front_name_iff tidy).mpr ⟨name, fills_of_isValidName valid, rfl, rfl⟩
  | divided front name valid =>
      refine ⟨asked, ⟨_, List.mem_cons_of_mem _ List.mem_cons_self, ?_⟩,
        (admits_named _ _ name []).trans valid⟩
      exact (shows_front_divided_iff tidy).mpr ⟨name, fills_of_isValidName valid, rfl, rfl⟩
  | rest front name rest valid nonempty =>
      refine ⟨asked, ⟨_, List.mem_cons_of_mem _ (List.mem_cons_of_mem _ List.mem_cons_self), ?_⟩,
        (admits_named _ _ name [("params", rest)]).trans valid⟩
      exact (shows_front_rest_iff tidy).mpr
        ⟨name, rest, fills_of_isValidName valid, nonempty, rfl, rfl⟩

/-- The routes of a form serve just the paths that have it. -/
theorem serves_route_iff {form : PathForm} (tidy : form.Tidy) (methods : MethodSet)
    (method : Method) (path : String) (params : List (String × String)) :
    (form.route methods).Serves method path params ↔
      methods.allows method = true ∧ ∃ name rest, form.Has path name rest ∧
        params = shown name rest := by
  constructor
  · intro serves
    refine ⟨?_, has_of_serves tidy serves⟩
    rw [← methods_route form methods]
    exact serves.asked
  · rintro ⟨asked, name, rest, has, rfl⟩
    exact serves_of_has tidy asked has

/-! ## Parameters of a form -/

theorem param?_name (request : Request) (name rest : Option String) :
    (request.withParams (shown name rest)).param? "name" = name := by
  cases name <;> cases rest <;> rfl

theorem param?_rest (request : Request) (name rest : Option String) :
    (request.withParams (shown name rest)).param? "params" = rest := by
  cases name <;> cases rest <;> rfl

end PathForm

end FunctionGateway
