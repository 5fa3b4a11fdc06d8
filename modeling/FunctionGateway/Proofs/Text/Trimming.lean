import FunctionGateway.Text.Blank
import Mathlib.Data.List.TakeWhile

/-!
# Text without the blanks round it

Trimming takes characters off at both ends, all of them blank, and leaves none there that is.
Both together say what is left.
-/

namespace FunctionGateway.Text

variable {blank : Char → Bool}

/-- `core` is `letters` without the blanks round it. -/
structure Strips (blank : Char → Bool) (letters core : List Char) : Prop where
  cut : ∃ before after, letters = before ++ core ++ after ∧
    (∀ letter ∈ before, blank letter = true) ∧ ∀ letter ∈ after, blank letter = true
  front : ∀ letter ∈ core.head?, blank letter = false
  back : ∀ letter ∈ core.getLast?, blank letter = false

/-- Letters are divided where the first of them is not blank. -/
theorem dropWhile_append_of_front {before rest : List Char}
    (blanks : ∀ letter ∈ before, blank letter = true)
    (front : ∀ letter ∈ rest.head?, blank letter = false) :
    (before ++ rest).dropWhile blank = rest := by
  rw [List.dropWhile_append_of_pos blanks]
  cases rest with
  | nil => rfl
  | cons first others =>
      exact List.dropWhile_cons_of_neg (by simpa using front first rfl)

theorem front_dropWhile (letters : List Char) :
    ∀ letter ∈ (letters.dropWhile blank).head?, blank letter = false := by
  intro letter first
  have none := List.head?_dropWhile_not blank letters
  rw [Option.mem_def.mp first] at none
  simpa using none

/-- There is such a part of any letters. -/
theorem strips_dropWhile (letters : List Char) :
    Strips blank letters ((letters.dropWhile blank).reverse.dropWhile blank).reverse := by
  let rest := letters.dropWhile blank
  let tail := (rest.reverse.takeWhile blank).reverse
  have whole : letters = letters.takeWhile blank ++ rest :=
    List.takeWhile_append_dropWhile.symm
  have behind : rest = (rest.reverse.dropWhile blank).reverse ++ tail := by
    rw [← List.reverse_append, List.takeWhile_append_dropWhile, List.reverse_reverse]
  refine ⟨⟨letters.takeWhile blank, tail, ?_, ?_, ?_⟩, ?_, ?_⟩
  · rw [List.append_assoc, ← behind]
    exact whole
  · exact fun letter member => List.mem_takeWhile_imp member
  · exact fun letter member => List.mem_takeWhile_imp (List.mem_reverse.mp member)
  · intro letter first
    refine front_dropWhile letters letter ?_
    change letter ∈ rest.head?
    rw [behind, List.head?_append, Option.mem_def.mp first]
    rfl
  · intro letter last
    rw [List.getLast?_reverse] at last
    exact front_dropWhile rest.reverse letter last

/-- What is left without the blanks round it is found by dropping them at one end and then at
the other. -/
theorem strips_iff {letters core : List Char} :
    Strips blank letters core ↔
      ((letters.dropWhile blank).reverse.dropWhile blank).reverse = core := by
  constructor
  · rintro ⟨⟨before, after, rfl, blanks, blanksBehind⟩, front, back⟩
    cases core with
    | nil =>
        have blanksOnly : ∀ letter ∈ before ++ [] ++ after, blank letter = true := by
          intro letter member
          rw [List.append_nil] at member
          exact (List.mem_append.mp member).elim (blanks letter) (blanksBehind letter)
        rw [List.dropWhile_eq_nil_iff.mpr blanksOnly]
        rfl
    | cons first others =>
        have frontWhole : ∀ letter ∈ (first :: others ++ after).head?, blank letter = false :=
          front
        have frontTurned : ∀ letter ∈ (first :: others).reverse.head?, blank letter = false := by
          rw [List.head?_reverse]
          exact back
        have blanksTurned : ∀ letter ∈ after.reverse, blank letter = true :=
          fun letter member => blanksBehind letter (List.mem_reverse.mp member)
        rw [List.append_assoc, dropWhile_append_of_front blanks frontWhole, List.reverse_append,
          dropWhile_append_of_front blanksTurned frontTurned, List.reverse_reverse]
  · rintro rfl
    exact strips_dropWhile letters

/-- The same of texts. -/
theorem strips_toList_iff {text core : String} :
    Strips blank text.toList core.toList ↔
      String.ofList ((text.toList.dropWhile blank).reverse.dropWhile blank).reverse = core := by
  rw [strips_iff]
  constructor
  · intro same
    rw [same, String.ofList_toList]
  · rintro rfl
    rw [String.toList_ofList]

/-- Trimming leaves a text without the blanks round it. -/
theorem trim_eq_iff {text core : String} :
    trim text = core ↔ Strips isBlank text.toList core.toList :=
  strips_toList_iff.symm

end FunctionGateway.Text
