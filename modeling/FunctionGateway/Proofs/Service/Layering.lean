import FunctionGateway.Proofs.Service.Timing
import FunctionGateway.Service.Stack
import Mathlib.Data.List.Basic

/-!
# What a stack of layers comes to

A stack is built of guards, deadlines and instruments in any order.  What comes of a request
can be told from the list of them: a guard that rejects settles it at once, and otherwise
the least limit decides between the handler's answer and a refusal.  Instruments change
nothing, and count what passes them.
-/

namespace FunctionGateway

open FunctionGateway.Http
open FunctionGateway.Metrics

variable {α φ σ : Type}

/-- A layer that comes with the gateway. -/
inductive Decoration where
  | guard (credentials : Credentials)
  | deadline (limit : Duration)
  | instrument (template : String)
deriving DecidableEq

/-- An instrument of a stack, with the layers outside and inside of it. -/
structure Mounted where
  outside : List Decoration
  template : String
  inside : List Decoration
deriving DecidableEq

namespace Decoration

def layer : Decoration → Layer (Service α)
  | .guard credentials => Layer.guard credentials
  | .deadline limit => Layer.deadline limit
  | .instrument template => Layer.instrument template

def rejects (request : Request) : Decoration → Bool
  | .guard credentials => !credentials.accept request
  | _ => false

/-- The limit of a deadline; zero is none. -/
def limit? : Decoration → Option Nat
  | .deadline limit => if limit.isZero then none else some limit.nanos
  | _ => none

/-- The least limit in a stack, if there is any. -/
def leastLimit? (decorations : List Decoration) : Option Nat :=
  (decorations.filterMap limit?).min?

/-- What a stack makes of the outcome of its handler. -/
def answer (decorations : List Decoration) (request : Request) (outcome : Outcome) : Outcome :=
  if decorations.any (rejects request) then
    some (0, unauthorized)
  else
    match leastLimit? decorations with
    | some limit => outcome.cut limit
    | none => outcome

/-- The instruments of a stack, outermost first. -/
def mounted : List Decoration → List Mounted
  | [] => []
  | decoration :: inside =>
      let deeper := (mounted inside).map fun spot =>
        { spot with outside := decoration :: spot.outside }
      match decoration with
      | .instrument template => ⟨[], template, inside⟩ :: deeper
      | _ => deeper

end Decoration

namespace Mounted

/-- No guard outside of an instrument keeps a request from it. -/
def entered (request : Request) (spot : Mounted) : Bool :=
  !spot.outside.any (Decoration.rejects request)

/-- What an instrument adds to the ledger: nothing unless it is entered and the layers inside
of it finish before a deadline outside has passed, or just then. -/
def observation? (request : Request) (outcome : Outcome) (spot : Mounted) : Option Observation :=
  match Decoration.answer spot.inside request outcome with
  | some (time, response) =>
      if spot.entered request ∧ ∀ limit ∈ Decoration.leastLimit? spot.outside, time ≤ limit then
        some ⟨response.status, methodLabel request.method, spot.template⟩
      else
        none
  | none => none

end Mounted

namespace Decoration

variable {request : Request} {outcome : Outcome}

/-! ## Answers, layer by layer -/

theorem leastLimit?_deadline {limit : Duration} (positive : limit.isZero = false)
    (inside : List Decoration) :
    leastLimit? (.deadline limit :: inside) =
      some ((leastLimit? inside).elim limit.nanos (min limit.nanos)) := by
  simp only [leastLimit?, List.filterMap_cons, limit?, positive, Bool.false_eq_true, if_false,
    List.min?_cons]

theorem exists_deadline {decoration : Decoration} {limit : Nat}
    (limited : decoration.limit? = some limit) :
    ∃ own : Duration, decoration = .deadline own ∧ own.isZero = false ∧ limit = own.nanos := by
  cases decoration with
  | guard credentials => cases limited
  | instrument template => cases limited
  | deadline own =>
      rw [limit?] at limited
      split at limited
      · cases limited
      · rename_i positive
        exact ⟨own, rfl, Bool.eq_false_iff.mpr positive, (Option.some.inj limited).symm⟩

/-- A layer that neither rejects nor has a limit makes no difference. -/
theorem answer_cons_of_passing {decoration : Decoration}
    (accepts : decoration.rejects request = false) (unlimited : decoration.limit? = none)
    (inside : List Decoration) :
    answer (decoration :: inside) request outcome = answer inside request outcome := by
  simp only [answer, leastLimit?, List.any_cons, accepts, Bool.false_or,
    List.filterMap_cons_none unlimited]

theorem answer_cons_of_rejects {decoration : Decoration}
    (rejected : decoration.rejects request = true) (inside : List Decoration) :
    answer (decoration :: inside) request outcome = some (0, unauthorized) := by
  simp [answer, rejected]

theorem answer_deadline {limit : Duration} {inside : List Decoration}
    (positive : limit.isZero = false) :
    answer (.deadline limit :: inside) request outcome =
      (answer inside request outcome).cut limit.nanos := by
  rw [answer, answer, leastLimit?_deadline positive, List.any_cons]
  by_cases rejected : inside.any (rejects request) = true
  · simp [rejects, rejected, Outcome.cut]
  · simp only [rejects, rejected, Bool.false_or]
    cases least : leastLimit? inside with
    | none => rfl
    | some other => exact (outcome.cut_cut limit.nanos other).symm

/-- Layers that do not reject leave their least limit to decide. -/
theorem answer_append_of_accepts {outside : List Decoration}
    (accepts : outside.any (rejects request) = false) (inside : List Decoration) :
    answer (outside ++ inside) request outcome =
      match leastLimit? outside with
      | some limit => (answer inside request outcome).cut limit
      | none => answer inside request outcome := by
  induction outside with
  | nil => rfl
  | cons decoration rest inductionHypothesis =>
      rw [List.any_cons, Bool.or_eq_false_iff] at accepts
      have deeper := inductionHypothesis accepts.2
      rw [List.cons_append]
      cases unlimited : decoration.limit? with
      | none =>
          rw [answer_cons_of_passing accepts.1 unlimited, deeper]
          simp only [leastLimit?, List.filterMap_cons_none unlimited]
      | some limit =>
          obtain ⟨own, rfl, positive, rfl⟩ := exists_deadline unlimited
          rw [answer_deadline positive, deeper, leastLimit?_deadline positive]
          cases leastLimit? rest with
          | none => rfl
          | some other => exact Outcome.cut_cut _ own.nanos other

/-! ## Instruments, layer by layer -/

/-- The instruments of a stack are the places where it can be divided at one. -/
theorem mem_mounted_iff (decorations : List Decoration) (spot : Mounted) :
    spot ∈ mounted decorations ↔
      decorations = spot.outside ++ .instrument spot.template :: spot.inside := by
  obtain ⟨outside, template, inside⟩ := spot
  induction decorations generalizing outside with
  | nil => simp [mounted]
  | cons decoration rest inductionHypothesis =>
      have deeper : ∀ further : List Decoration, ⟨further, template, inside⟩ ∈
            (mounted rest).map (fun spot =>
              { spot with outside := decoration :: spot.outside }) ↔
          further ≠ [] ∧ decoration :: rest = further ++ .instrument template :: inside := by
        intro further
        rw [List.mem_map]
        constructor
        · rintro ⟨⟨behind, _, _⟩, member, same⟩
          cases same
          have split := (inductionHypothesis behind).mp member
          exact ⟨List.cons_ne_nil _ _, congrArg (decoration :: ·) split⟩
        · rintro ⟨filled, split⟩
          obtain ⟨first, behind, rfl⟩ := List.exists_cons_of_ne_nil filled
          obtain ⟨rfl, further⟩ := List.cons.inj split
          exact ⟨⟨behind, template, inside⟩, (inductionHypothesis behind).mpr further, rfl⟩
      have below := deeper outside
      cases decoration with
      | instrument own =>
          simp only [mounted, List.mem_cons, below, Mounted.mk.injEq]
          constructor
          · rintro (⟨rfl, rfl, rfl⟩ | ⟨_, split⟩)
            · rfl
            · exact split
          · intro split
            cases outside with
            | nil =>
                cases split
                exact Or.inl ⟨rfl, rfl, rfl⟩
            | cons first further => exact Or.inr ⟨List.cons_ne_nil _ _, split⟩
      | guard credentials =>
          simp only [mounted, below]
          refine and_iff_right_of_imp ?_
          rintro split rfl
          cases split
      | deadline limit =>
          simp only [mounted, below]
          refine and_iff_right_of_imp ?_
          rintro split rfl
          cases split

/-- A layer that makes no difference for the outcome makes none for the instruments inside. -/
theorem observation?_cons_of_passing (request : Request) (outcome : Outcome)
    {decoration : Decoration}
    (accepts : decoration.rejects request = false) (unlimited : decoration.limit? = none)
    (spot : Mounted) :
    Mounted.observation? request outcome
        { spot with outside := decoration :: spot.outside } =
      spot.observation? request outcome := by
  simp only [Mounted.observation?, Mounted.entered, leastLimit?, List.any_cons, accepts,
    Bool.false_or, List.filterMap_cons_none unlimited]
  rfl

/-- An instrument observes the answer of the layers inside of it if it is entered and no limit
outside is passed before. -/
theorem observation?_eq_some_iff {spot : Mounted} {observation : Observation} :
    spot.observation? request outcome = some observation ↔
      ∃ time response, answer spot.inside request outcome = some (time, response) ∧
        spot.entered request = true ∧ (∀ limit ∈ leastLimit? spot.outside, time ≤ limit) ∧
        observation = ⟨response.status, methodLabel request.method, spot.template⟩ := by
  rw [Mounted.observation?]
  cases answered : answer spot.inside request outcome with
  | none => simp
  | some ending =>
      obtain ⟨time, response⟩ := ending
      rw [Option.ite_none_right_eq_some]
      constructor
      · rintro ⟨⟨entered, early⟩, observed⟩
        exact ⟨time, response, rfl, entered, early, (Option.some.inj observed).symm⟩
      · rintro ⟨_, _, same, entered, early, rfl⟩
        cases same
        exact ⟨⟨entered, early⟩, rfl⟩

theorem observation?_cons_of_rejects (outcome : Outcome) {decoration : Decoration}
    (rejected : decoration.rejects request = true) (spot : Mounted) :
    Mounted.observation? request outcome
      { spot with outside := decoration :: spot.outside } = none := by
  apply Option.eq_none_iff_forall_ne_some.mpr
  intro observation observed
  obtain ⟨_, _, _, entered, _, _⟩ := observation?_eq_some_iff.mp observed
  simp [Mounted.entered, rejected] at entered

/-- An instrument that observes something passes on what the whole stack answers. -/
theorem answer_of_observation? {decorations : List Decoration} {spot : Mounted}
    (member : spot ∈ mounted decorations) {time : Nat} {response : Response}
    (entered : spot.entered request = true)
    (answered : answer spot.inside request outcome = some (time, response))
    (early : ∀ limit ∈ leastLimit? spot.outside, time ≤ limit) :
    answer decorations request outcome = some (time, response) := by
  rw [(mem_mounted_iff decorations spot).mp member]
  have accepts : spot.outside.any (rejects request) = false := by
    simpa [Mounted.entered] using entered
  rw [answer_append_of_accepts accepts, answer_cons_of_passing rfl rfl, answered]
  cases least : leastLimit? spot.outside with
  | none => rfl
  | some limit => exact if_pos (early limit least)

theorem le_leastLimit?_deadline_iff {limit : Duration} (positive : limit.isZero = false)
    (inside : List Decoration) (time : Nat) :
    (∀ least ∈ leastLimit? (.deadline limit :: inside), time ≤ least) ↔
      time ≤ limit.nanos ∧ ∀ least ∈ leastLimit? inside, time ≤ least := by
  rw [leastLimit?_deadline positive]
  cases leastLimit? inside with
  | none => simp
  | some other =>
      simp only [Option.elim_some, Option.mem_def, Option.some.injEq, forall_eq']
      exact Nat.le_min

/-- A deadline further out leaves an instrument its observation if the layers inside of the
deadline finish within its limit, and takes it otherwise. -/
theorem observation?_cons_of_limit {limit : Duration} (positive : limit.isZero = false)
    {decorations : List Decoration} {spot : Mounted} (member : spot ∈ mounted decorations) :
    Mounted.observation? request outcome
        { spot with outside := .deadline limit :: spot.outside } =
      if (answer decorations request outcome).within limit.nanos then
        spot.observation? request outcome
      else none := by
  apply Option.ext
  intro observation
  rw [observation?_eq_some_iff, Option.ite_none_right_eq_some, observation?_eq_some_iff]
  have entered : Mounted.entered request { spot with outside := .deadline limit :: spot.outside } =
      spot.entered request := rfl
  simp only [entered, le_leastLimit?_deadline_iff positive]
  constructor
  · rintro ⟨time, response, answered, reached, ⟨inTime, early⟩, rfl⟩
    have whole := answer_of_observation? member reached answered early
    refine ⟨?_, time, response, answered, reached, early, rfl⟩
    rw [whole]
    exact decide_eq_true inTime
  · rintro ⟨inTime, time, response, answered, reached, early, rfl⟩
    have whole := answer_of_observation? member reached answered early
    rw [whole] at inTime
    exact ⟨time, response, answered, reached, ⟨of_decide_eq_true inTime, early⟩, rfl⟩

/-! ## What a whole stack observes -/

/-- What the instruments of a stack observe, outermost first. -/
def observed (decorations : List Decoration) (request : Request) (outcome : Outcome) :
    List Observation :=
  (mounted decorations).filterMap (Mounted.observation? request outcome)

theorem observed_cons_of_passing {decoration : Decoration}
    (accepts : decoration.rejects request = false) (unlimited : decoration.limit? = none)
    (bare : ∀ template, decoration ≠ .instrument template) (inside : List Decoration) :
    observed (decoration :: inside) request outcome = observed inside request outcome := by
  have same := observation?_cons_of_passing request outcome accepts unlimited
  cases decoration with
  | instrument template => exact absurd rfl (bare template)
  | guard credentials =>
      simp only [observed, mounted, List.filterMap_map, Function.comp_def, same]
  | deadline limit =>
      simp only [observed, mounted, List.filterMap_map, Function.comp_def, same]

theorem observed_cons_of_rejects {credentials : Credentials}
    (rejected : credentials.accept request = false) (inside : List Decoration) :
    observed (.guard credentials :: inside) request outcome = [] := by
  have rejects : (Decoration.guard credentials).rejects request = true := by
    simp [Decoration.rejects, rejected]
  have nothing := observation?_cons_of_rejects outcome rejects
  simp only [observed, mounted, List.filterMap_map, Function.comp_def, nothing,
    List.filterMap_eq_nil_iff, implies_true]

theorem observed_cons_of_limit {limit : Duration} (positive : limit.isZero = false)
    (inside : List Decoration) :
    observed (.deadline limit :: inside) request outcome =
      if (answer inside request outcome).within limit.nanos then observed inside request outcome
      else [] := by
  have cut : observed (.deadline limit :: inside) request outcome =
      (mounted inside).filterMap fun spot =>
        if (answer inside request outcome).within limit.nanos then
          spot.observation? request outcome
        else none := by
    simp only [observed, mounted, List.filterMap_map]
    apply List.filterMap_congr
    intro spot member
    exact observation?_cons_of_limit positive member
  rw [cut]
  split
  · rfl
  · simp

theorem observed_cons_instrument (template : String) (inside : List Decoration) :
    observed (.instrument template :: inside) request outcome =
      (answer inside request outcome).toList.map
          (fun ending => ⟨ending.2.status, methodLabel request.method, template⟩) ++
        observed inside request outcome := by
  have accepts : (Decoration.instrument template).rejects request = false := rfl
  have same := observation?_cons_of_passing request outcome accepts rfl
  have own : Mounted.observation? request outcome ⟨[], template, inside⟩ =
      (answer inside request outcome).map fun ending =>
        ⟨ending.2.status, methodLabel request.method, template⟩ := by
    rw [Mounted.observation?]
    cases answer inside request outcome with
    | none => rfl
    | some ending => simp [Mounted.entered, leastLimit?]
  simp only [observed, mounted, List.filterMap_cons, List.filterMap_map, Function.comp_def, same,
    own]
  cases answer inside request outcome <;> rfl

end Decoration

end FunctionGateway
