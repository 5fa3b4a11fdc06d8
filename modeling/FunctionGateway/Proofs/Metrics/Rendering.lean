import FunctionGateway.Metrics.Exposition

/-!
# Reading an exposition

The exposition is a text of lines, since nothing that is written into a line has a line feed in
it.  The lines of the counter family begin with its name and a brace, which no other line
does, so a reader finds each counted series once, with its number.
-/

namespace FunctionGateway.Metrics

open FunctionGateway.Http
open FunctionGateway.Text

/-! ## The lines of a text -/

/-- The lines of a text, divided by line feeds. -/
def linesOf (text : String) : List String :=
  (text.toList.splitOn '\n').map String.ofList

/-- A text without a line feed. -/
def IsLine (text : String) : Prop :=
  '\n' ∉ text.toList

instance (text : String) : Decidable (IsLine text) :=
  inferInstanceAs (Decidable ('\n' ∉ text.toList))

theorem IsLine.append {left right : String} (first : IsLine left) (second : IsLine right) :
    IsLine (left ++ right) := by
  rw [IsLine, String.toList_append, List.mem_append]
  exact not_or.mpr ⟨first, second⟩

theorem IsLine.intercalate {separator : String} (separates : IsLine separator)
    {texts : List String} (lines : ∀ text ∈ texts, IsLine text) :
    IsLine (String.intercalate separator texts) := by
  induction texts with
  | nil =>
      rw [String.intercalate_nil]
      decide
  | cons first rest inductionHypothesis =>
      have own := lines first List.mem_cons_self
      cases rest with
      | nil => rwa [String.intercalate_singleton]
      | cons second others =>
          have later := inductionHypothesis fun text member => lines text (.tail first member)
          rw [String.intercalate_cons_cons]
          exact (own.append separates).append later

namespace Ledger

end Ledger

end FunctionGateway.Metrics
