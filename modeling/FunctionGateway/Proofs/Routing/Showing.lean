import FunctionGateway.Proofs.Routing.Reference

/-!
# What a pattern shows of a path

A pattern's text matches a path and shows parameters of it.  Text in front that has no braces
is found in front of the path, and behind it the usual endings show a name, a name in front of
a `/`, or a name and the rest.
-/

namespace FunctionGateway.Routing

open FunctionGateway.Text

/-- A `/` among the bytes of a text is one of its characters. -/
theorem slash_mem_encodeUtf8_iff {text : String} :
    slash ∈ encodeUtf8 text ↔ '/' ∈ text.toList := by
  constructor
  · intro member
    obtain ⟨front, rest, same⟩ := List.append_of_mem member
    have whole : IsText (front ++ slash :: rest) := ⟨text, same⟩
    obtain ⟨⟨before, rfl⟩, _⟩ := whole.split isText_slash.first
    obtain ⟨after, rfl⟩ := isText_slash.cancel (whole.split isText_slash.first).2
    have divided : text = before ++ "/" ++ after := by
      refine encodeUtf8_injective ?_
      rw [same, encodeUtf8_append, encodeUtf8_append, List.append_assoc]
      rfl
    rw [divided]
    simp
  · intro member
    exact List.mem_flatMap.mpr ⟨'/', member, by decide⟩

/-- The text of a pattern matches a path, with these parameters. -/
def Shows (source path : String) (params : List (String × String)) : Prop :=
  ∃ pieces values, Piece.Spelled source pieces ∧
    Place.Fits (pieces.map Piece.place) (encodeUtf8 path) values ∧
    params.map (fun (name, value) => (encodeUtf8 name, encodeUtf8 value)) =
      (pieces.filterMap Piece.name?).zip values

/-- A text without braces. -/
def Braceless (text : String) : Prop :=
  ∀ byte ∈ encodeUtf8 text, byte ≠ braceOpen ∧ byte ≠ braceClose

instance (text : String) : Decidable (Braceless text) :=
  inferInstanceAs (Decidable (∀ byte ∈ encodeUtf8 text, _))

/-! ## Literal text in front -/

theorem Glyph.read_append {text : Bytes}
    (plain : ∀ byte ∈ text, byte ≠ braceOpen ∧ byte ≠ braceClose) (rest : Bytes) :
    Glyph.read (text ++ rest) = text.map (⟨·, false⟩) ++ Glyph.read rest := by
  induction text with
  | nil => rfl
  | cons first text inductionHypothesis =>
      have later := inductionHypothesis fun byte member => plain byte (.tail first member)
      rw [List.cons_append, List.map_cons, List.cons_append, ← later]
      cases text ++ rest with
      | nil => rfl
      | cons second behind =>
          obtain ⟨notOpen, notClose⟩ := plain first List.mem_cons_self
          simp [Glyph.read, notOpen, notClose]

theorem Piece.Spells.behind {text : Bytes}
    (plain : ∀ byte ∈ text, byte ≠ braceOpen ∧ byte ≠ braceClose) {glyphs : List Glyph}
    {pieces : List Piece} (spells : Piece.Spells glyphs pieces) :
    Piece.Spells (text.map (⟨·, false⟩) ++ glyphs) (text.map .literal ++ pieces) := by
  induction text with
  | nil => exact spells
  | cons first text inductionHypothesis =>
      obtain ⟨notOpen, notClose⟩ := plain first List.mem_cons_self
      refine Piece.Spells.literal ⟨first, false⟩ ?_ ?_
        (inductionHypothesis fun byte member => plain byte (.tail first member))
      · exact fun same => notOpen (congrArg Glyph.byte same)
      · exact fun same => notClose (congrArg Glyph.byte same)

theorem Piece.name?_literals (text : Bytes) (pieces : List Piece) :
    (text.map Piece.literal ++ pieces).filterMap Piece.name? = pieces.filterMap Piece.name? := by
  induction text with
  | nil => rfl
  | cons first text inductionHypothesis => exact inductionHypothesis

theorem Piece.place_literals (text : Bytes) (pieces : List Piece) :
    (text.map Piece.literal ++ pieces).map Piece.place =
      text.map .literal ++ pieces.map Piece.place := by
  rw [List.map_append, List.map_map]
  rfl

/-- Literal text stands in front of a path, and the pattern goes on behind it. -/
theorem shows_append_iff {front rest : String} (braceless : Braceless front)
    {pieces : List Piece} (spelled : Piece.Spelled rest pieces) {path : String}
    {params : List (String × String)} :
    Shows (front ++ rest) path params ↔
      ∃ behind, path = front ++ behind ∧ Shows rest behind params := by
  have whole : Piece.Spelled (front ++ rest) ((encodeUtf8 front).map .literal ++ pieces) := by
    rw [Piece.Spelled, encodeUtf8_append, Glyph.read_append braceless]
    exact spelled.behind braceless
  constructor
  · rintro ⟨others, values, spelledOthers, fits, shown⟩
    cases whole.unique spelledOthers
    rw [Piece.place_literals, Place.fits_text_iff] at fits
    rw [Piece.name?_literals] at shown
    obtain ⟨after, same, further⟩ := fits
    have isText : IsText (encodeUtf8 front) := ⟨front, rfl⟩
    obtain ⟨behind, rfl⟩ := isText.cancel ⟨path, same⟩
    refine ⟨behind, ?_, pieces, values, spelled, further, shown⟩
    exact encodeUtf8_injective (same.trans (encodeUtf8_append front behind).symm)
  · rintro ⟨behind, rfl, others, values, spelledOthers, fits, shown⟩
    cases spelled.unique spelledOthers
    refine ⟨_, values, whole, ?_, ?_⟩
    · rw [Piece.place_literals, Place.fits_text_iff]
      exact ⟨encodeUtf8 behind, encodeUtf8_append front behind, fits⟩
    · rw [Piece.name?_literals]
      exact shown

/-! ## The usual endings -/

theorem spelled_nothing : Piece.Spelled "" [] :=
  Piece.spelled_of_read rfl rfl

theorem spelled_name : Piece.Spelled "\x7bname\x7d" [.param (encodeUtf8 "name")] :=
  Piece.spelled_of_read rfl rfl

theorem spelled_divided :
    Piece.Spelled "\x7bname\x7d/" [.param (encodeUtf8 "name"), .literal slash] :=
  Piece.spelled_of_read rfl rfl

theorem spelled_rest :
    Piece.Spelled "\x7bname\x7d/\x7b*params\x7d"
      [.param (encodeUtf8 "name"), .literal slash, .remainder (encodeUtf8 "params")] :=
  Piece.spelled_of_read rfl rfl

/-- A text that a parameter may stand for. -/
def Fills (text : String) : Prop :=
  text ≠ "" ∧ '/' ∉ text.toList

theorem fills_iff {text : String} :
    Fills text ↔ encodeUtf8 text ≠ [] ∧ slash ∉ encodeUtf8 text := by
  rw [Fills, Ne, Ne, encodeUtf8_eq_nil_iff, slash_mem_encodeUtf8_iff]

theorem fills_of_isValidName {text : String} (valid : isValidName text = true) : Fills text := by
  obtain ⟨nonempty, letters⟩ := (isValidName_iff text).mp valid
  constructor
  · rintro rfl
    exact nonempty rfl
  · intro member
    exact absurd (letters '/' member) (by decide)

theorem shows_nothing_iff {path : String} {params : List (String × String)} :
    Shows "" path params ↔ path = "" ∧ params = [] := by
  constructor
  · rintro ⟨pieces, values, spelled, fits, shown⟩
    cases spelled.unique spelled_nothing
    obtain ⟨empty, rfl⟩ := Place.fits_nil_iff.mp fits
    exact ⟨encodeUtf8_eq_nil_iff.mp empty, List.map_eq_nil_iff.mp shown⟩
  · rintro ⟨rfl, rfl⟩
    exact ⟨[], [], spelled_nothing, .done, rfl⟩

theorem shows_name_iff {path : String} {params : List (String × String)} :
    Shows "\x7bname\x7d" path params ↔ Fills path ∧ params = [("name", path)] := by
  constructor
  · rintro ⟨pieces, values, spelled, fits, shown⟩
    cases spelled.unique spelled_name
    obtain ⟨value, after, _, nonempty, plain, whole, rfl, ended⟩ := Place.fits_param_iff.mp fits
    obtain ⟨rfl, rfl⟩ := Place.fits_nil_iff.mp ended
    rw [List.append_nil] at whole
    subst whole
    exact ⟨fills_iff.mpr ⟨nonempty, plain⟩, params_eq_of_encoded shown⟩
  · rintro ⟨fills, rfl⟩
    obtain ⟨nonempty, plain⟩ := fills_iff.mp fills
    refine ⟨_, [encodeUtf8 path], spelled_name, ?_, rfl⟩
    have fits := Place.Fits.param (encodeUtf8 path) nonempty plain .done
    rwa [List.append_nil] at fits

theorem shows_divided_iff {path : String} {params : List (String × String)} :
    Shows "\x7bname\x7d/" path params ↔
      ∃ name, Fills name ∧ path = name ++ "/" ∧ params = [("name", name)] := by
  constructor
  · rintro ⟨pieces, values, spelled, fits, shown⟩
    cases spelled.unique spelled_divided
    obtain ⟨value, _, _, nonempty, plain, whole, rfl, further⟩ := Place.fits_param_iff.mp fits
    obtain ⟨_, rfl, ended⟩ := Place.fits_literal_iff.mp further
    obtain ⟨rfl, rfl⟩ := Place.fits_nil_iff.mp ended
    obtain ⟨⟨key, name⟩, rfl, encoded⟩ := List.map_eq_singleton_iff.mp shown
    obtain ⟨_, rfl⟩ := Prod.mk.inj encoded
    refine ⟨name, fills_iff.mpr ⟨nonempty, plain⟩, ?_, params_eq_of_encoded shown⟩
    exact encodeUtf8_injective (whole.trans (encodeUtf8_append name "/").symm)
  · rintro ⟨name, fills, rfl, rfl⟩
    obtain ⟨nonempty, plain⟩ := fills_iff.mp fills
    refine ⟨_, [encodeUtf8 name], spelled_divided, ?_, rfl⟩
    rw [encodeUtf8_append]
    exact .param (encodeUtf8 name) nonempty plain (.literal slash .done)

theorem shows_rest_iff {path : String} {params : List (String × String)} :
    Shows "\x7bname\x7d/\x7b*params\x7d" path params ↔
      ∃ name rest, Fills name ∧ rest ≠ "" ∧ path = name ++ "/" ++ rest ∧
        params = [("name", name), ("params", rest)] := by
  constructor
  · rintro ⟨pieces, values, spelled, fits, shown⟩
    cases spelled.unique spelled_rest
    obtain ⟨value, _, _, nonempty, plain, whole, rfl, further⟩ := Place.fits_param_iff.mp fits
    obtain ⟨after, rfl, last⟩ := Place.fits_literal_iff.mp further
    obtain ⟨_, filled, rfl⟩ := Place.fits_remainder_iff.mp last
    obtain ⟨⟨key, name⟩, others, rfl, encoded, shownRest⟩ := List.map_eq_cons_iff.mp shown
    obtain ⟨_, rfl⟩ := Prod.mk.inj encoded
    obtain ⟨⟨other, rest⟩, rfl, encodedRest⟩ := List.map_eq_singleton_iff.mp shownRest
    obtain ⟨_, rfl⟩ := Prod.mk.inj encodedRest
    refine ⟨name, rest, fills_iff.mpr ⟨nonempty, plain⟩, ?_, ?_, params_eq_of_encoded shown⟩
    · exact fun empty => filled (encodeUtf8_eq_nil_iff.mpr empty)
    · refine encodeUtf8_injective (whole.trans ?_)
      rw [encodeUtf8_append, encodeUtf8_append, List.append_assoc]
      rfl
  · rintro ⟨name, rest, fills, nonemptyRest, rfl, rfl⟩
    obtain ⟨nonempty, plain⟩ := fills_iff.mp fills
    refine ⟨_, [encodeUtf8 name, encodeUtf8 rest], spelled_rest, ?_, rfl⟩
    rw [encodeUtf8_append, encodeUtf8_append, List.append_assoc]
    refine .param (encodeUtf8 name) nonempty plain (.literal slash (.remainder _ ?_))
    exact fun empty => nonemptyRest (encodeUtf8_eq_nil_iff.mp empty)

end FunctionGateway.Routing
