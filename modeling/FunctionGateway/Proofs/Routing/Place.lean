import FunctionGateway.Routing.Pattern

/-!
# Patterns as lists of places

A pattern whose parameter names are ignored is a list of places: literal bytes, parameters and
a remainder.  This module says what it means for such a pattern to match a path, which
of two patterns comes first, and when one takes a path away from another.  None of it
knows how patterns are stored.
-/

namespace FunctionGateway.Routing

open FunctionGateway.Text

/-- What stands at one place of a pattern. -/
inductive Place where
  | literal (byte : UInt8)
  | param
  | remainder
deriving DecidableEq

def Piece.place : Piece → Place
  | .literal byte => .literal byte
  | .param _ => .param
  | .remainder _ => .remainder

namespace Place

/-- A pattern matches a path as a whole, with the values of its wildcards in order. -/
inductive Fits : List Place → Bytes → List Bytes → Prop
  | done : Fits [] [] []
  | literal (byte : UInt8) {rest : List Place} {path : Bytes} {values : List Bytes} :
      Fits rest path values →
      Fits (.literal byte :: rest) (byte :: path) values
  | param (value : Bytes) {rest : List Place} {path : Bytes} {values : List Bytes} :
      value ≠ [] →
      slash ∉ value →
      Fits rest path values →
      Fits (.param :: rest) (value ++ path) (value :: values)
  | remainder (value : Bytes) :
      value ≠ [] →
      Fits [.remainder] value [value]

/-- At the leftmost place where two patterns differ, the first one has a literal and the
second one has none. -/
inductive Precedes : List Place → List Place → Prop
  | param (byte : UInt8) (first second : List Place) :
      Precedes (.literal byte :: first) (.param :: second)
  | remainder (byte : UInt8) (first second : List Place) :
      Precedes (.literal byte :: first) (.remainder :: second)
  | ended (byte : UInt8) (first : List Place) :
      Precedes (.literal byte :: first) []
  | cons (place : Place) {first second : List Place} :
      Precedes first second →
      Precedes (place :: first) (place :: second)

/-- The literal text that a pattern behind a parameter begins with, up to and
including the next `/`. -/
def tail : List Place → Bytes
  | .literal byte :: rest => if byte = slash then [slash] else byte :: tail rest
  | _ => []

/-- The patterns `winner` and `loser` agree up to a parameter that is reached on the path with
the same values before it.  There both could take a part of the same segment, and the
literal text behind the parameter in that segment is longer in `winner`. -/
inductive Overtakes : List Place → List Place → Bytes → Prop
  | literal (byte : UInt8) {winner loser : List Place} {path : Bytes} :
      Overtakes winner loser path →
      Overtakes (.literal byte :: winner) (.literal byte :: loser) (byte :: path)
  | param (value : Bytes) {winner loser : List Place} {path : Bytes} :
      value ≠ [] →
      slash ∉ value →
      Overtakes winner loser path →
      Overtakes (.param :: winner) (.param :: loser) (value ++ path)
  | longer (value after : Bytes) {winner loser : List Place} :
      value ≠ [] →
      slash ∉ value →
      slash ∈ tail winner ∨ after = [] →
      (tail loser).length < (tail winner).length →
      Overtakes (.param :: winner) (.param :: loser) (value ++ tail winner ++ after)

/-! ## Matching step by step -/

theorem fits_nil_iff {path : Bytes} {values : List Bytes} :
    Fits [] path values ↔ path = [] ∧ values = [] := by
  constructor
  · rintro ⟨⟩
    exact ⟨rfl, rfl⟩
  · rintro ⟨rfl, rfl⟩
    exact Fits.done

theorem fits_literal_iff {byte : UInt8} {rest : List Place} {path : Bytes}
    {values : List Bytes} :
    Fits (.literal byte :: rest) path values ↔
      ∃ after, path = byte :: after ∧ Fits rest after values := by
  constructor
  · rintro ⟨⟩
    exact ⟨_, rfl, by assumption⟩
  · rintro ⟨after, rfl, fits⟩
    exact Fits.literal byte fits

theorem fits_param_iff {rest : List Place} {path : Bytes} {values : List Bytes} :
    Fits (.param :: rest) path values ↔
      ∃ value after others, value ≠ [] ∧ slash ∉ value ∧ path = value ++ after ∧
        values = value :: others ∧ Fits rest after others := by
  constructor
  · rintro ⟨⟩
    exact ⟨_, _, _, by assumption, by assumption, rfl, rfl, by assumption⟩
  · rintro ⟨value, after, others, filled, plain, rfl, rfl, fits⟩
    exact Fits.param value filled plain fits

theorem fits_remainder_iff {rest : List Place} {path : Bytes} {values : List Bytes} :
    Fits (.remainder :: rest) path values ↔ rest = [] ∧ path ≠ [] ∧ values = [path] := by
  constructor
  · rintro ⟨⟩
    exact ⟨rfl, by assumption, rfl⟩
  · rintro ⟨rfl, filled, rfl⟩
    exact Fits.remainder path filled

/-- A run of literals is walked over byte by byte. -/
theorem fits_text_iff (text : Bytes) {rest : List Place} {path : Bytes} {values : List Bytes} :
    Fits (text.map .literal ++ rest) path values ↔
      ∃ after, path = text ++ after ∧ Fits rest after values := by
  induction text generalizing path with
  | nil => simp
  | cons byte text inductionHypothesis =>
      simp only [List.map_cons, List.cons_append, fits_literal_iff, inductionHypothesis]
      constructor
      · rintro ⟨_, rfl, after, rfl, fits⟩
        exact ⟨after, rfl, fits⟩
      · rintro ⟨after, rfl, fits⟩
        exact ⟨text ++ after, rfl, after, rfl, fits⟩

/-! ## The order of patterns -/

theorem Precedes.asymm {first second : List Place} (before : Precedes first second) :
    ¬ Precedes second first := by
  induction before with
  | param byte first second => rintro ⟨⟩
  | remainder byte first second => rintro ⟨⟩
  | ended byte first => rintro ⟨⟩
  | cons place _ inductionHypothesis =>
      rintro ⟨⟩
      exact inductionHypothesis (by assumption)

theorem Precedes.append (shared : List Place) {first second : List Place}
    (before : Precedes first second) : Precedes (shared ++ first) (shared ++ second) := by
  induction shared with
  | nil => exact before
  | cons place shared inductionHypothesis => exact Precedes.cons place inductionHypothesis

/-! ## Overtaking step by step -/

theorem overtakes_literal_iff {byte : UInt8} {winner loser : List Place} {path : Bytes} :
    Overtakes winner (.literal byte :: loser) path ↔
      ∃ later after, winner = .literal byte :: later ∧ path = byte :: after ∧
        Overtakes later loser after := by
  constructor
  · rintro ⟨⟩
    exact ⟨_, _, rfl, rfl, by assumption⟩
  · rintro ⟨later, after, rfl, rfl, overtakes⟩
    exact Overtakes.literal byte overtakes

theorem not_overtakes_nil {winner : List Place} {path : Bytes} :
    ¬ Overtakes winner [] path := by
  rintro ⟨⟩

theorem not_overtakes_remainder {winner loser : List Place} {path : Bytes} :
    ¬ Overtakes winner (.remainder :: loser) path := by
  rintro ⟨⟩

theorem Overtakes.text (text : Bytes) {winner loser : List Place} {path : Bytes}
    (overtakes : Overtakes winner loser path) :
    Overtakes (text.map .literal ++ winner) (text.map .literal ++ loser) (text ++ path) := by
  induction text with
  | nil => exact overtakes
  | cons byte text inductionHypothesis => exact Overtakes.literal byte inductionHypothesis

/-- Nothing overtakes itself. -/
theorem not_overtakes_self (places : List Place) (path : Bytes) :
    ¬ Overtakes places places path := by
  intro overtakes
  induction places generalizing path with
  | nil => exact not_overtakes_nil overtakes
  | cons place rest inductionHypothesis =>
      cases overtakes with
      | literal byte further => exact inductionHypothesis _ further
      | param value _ _ further => exact inductionHypothesis _ further
      | longer value after _ _ _ longer => exact absurd longer (Nat.lt_irrefl _)

/-- Nothing overtakes a pattern without wildcards. -/
theorem not_overtakes_text (text : Bytes) {winner : List Place} {path : Bytes} :
    ¬ Overtakes winner (text.map .literal) path := by
  intro overtakes
  induction text generalizing winner path with
  | nil => exact not_overtakes_nil overtakes
  | cons byte text inductionHypothesis =>
      obtain ⟨_, _, _, _, further⟩ := overtakes_literal_iff.mp overtakes
      exact inductionHypothesis further

/-! ## Tails -/

/-- A text that a segment can end with behind a parameter: it has no `/`, or one at its end. -/
def EndsSegment (text : Bytes) : Prop :=
  ∃ body, slash ∉ body ∧ (text = body ∨ text = body ++ [slash])

theorem tail_text_slash (body : Bytes) (plain : slash ∉ body) (rest : List Place) :
    tail ((body ++ [slash]).map .literal ++ rest) = body ++ [slash] := by
  induction body with
  | nil => simp [tail]
  | cons byte body inductionHypothesis =>
      rw [List.mem_cons, not_or] at plain
      simp only [List.cons_append, List.map_cons, tail, if_neg (Ne.symm plain.1),
        inductionHypothesis plain.2]

theorem tail_text (body : Bytes) (plain : slash ∉ body) :
    tail (body.map .literal) = body := by
  induction body with
  | nil => rfl
  | cons byte body inductionHypothesis =>
      rw [List.mem_cons, not_or] at plain
      simp only [List.map_cons, tail, if_neg (Ne.symm plain.1), inductionHypothesis plain.2]

end Place

end FunctionGateway.Routing
