import FunctionGateway.Http.Method

/-!
# Sets of methods a route answers

A route answers every method or an explicit list. The order of an explicit
list is kept, because routes are bound and shown in that order; `ofList?`
builds the lists a route is normally given, without repetitions and never empty.
-/

namespace FunctionGateway.Http

/-- The methods a route answers: all of them, extensions included, or a list. -/
inductive MethodSet where
  | any
  | only (methods : List Method)
deriving DecidableEq

namespace MethodSet

def one (method : Method) : MethodSet :=
  only [method]

/-- Keep the first occurrence of each method. -/
def dropRepeats : List Method → List Method
  | [] => []
  | method :: rest => method :: (dropRepeats rest).filter (· ≠ method)

/-- An explicit set; a route that answers nothing is refused. -/
def ofList? : List Method → Option MethodSet
  | [] => none
  | method :: rest => some (only (dropRepeats (method :: rest)))

def isAny : MethodSet → Bool
  | any => true
  | only _ => false

def allows : MethodSet → Method → Bool
  | any, _ => true
  | only methods, method => methods.contains method

/-- The text of a set: `*`, or the methods with commas between them. -/
def text : MethodSet → String
  | any => "*"
  | only methods => String.intercalate "," (methods.map Method.token)

theorem mem_dropRepeats (method : Method) : ∀ methods : List Method,
    method ∈ dropRepeats methods ↔ method ∈ methods
  | [] => by simp [dropRepeats]
  | first :: rest => by
      by_cases same : method = first
      · simp [dropRepeats, same]
      · simp [dropRepeats, same, mem_dropRepeats method rest]

theorem nodup_dropRepeats : ∀ methods : List Method, (dropRepeats methods).Nodup
  | [] => List.nodup_nil
  | first :: rest => by
      refine List.nodup_cons.2 ⟨?_, (nodup_dropRepeats rest).filter _⟩
      simp

/-- A set built from a list answers exactly the methods of the list. -/
theorem allows_of_ofList? {methods : List Method} {set : MethodSet}
    (built : ofList? methods = some set) (method : Method) :
    set.allows method = true ↔ method ∈ methods := by
  cases methods with
  | nil => simp [ofList?] at built
  | cons first rest =>
      have shape : only (dropRepeats (first :: rest)) = set := Option.some.inj built
      subst shape
      simp only [allows, List.contains_iff_mem, mem_dropRepeats]

end MethodSet

end FunctionGateway.Http
