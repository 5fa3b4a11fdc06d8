import FunctionGateway.Proofs.Routing.Place

/-!
# Routes as groups of places

A route is a pattern grouped the way a path is walked.  Ungrouped, it is a list of places
again: the one of the pattern it was made from, except that nothing is left of what stood
behind a misplaced remainder.  So matching and overtaking are known for routes, too.
-/

namespace FunctionGateway.Routing

open FunctionGateway.Text

namespace Route

def places : Route → List Place
  | .stop => []
  | .literal byte next => .literal byte :: next.places
  | .param => [.param]
  | .paramThen suffix next => .param :: (suffix.map .literal ++ next.places)
  | .remainder _ => [.remainder]
  | .crowded lead _ next => .param :: (lead.map .literal ++ next.places)
  | .stray => [.remainder]

/-- No segment holds two wildcards, and a remainder stands at the end only. -/
def plain : Route → Bool
  | .literal _ next => next.plain
  | .paramThen _ next => next.plain
  | .crowded _ _ _ => false
  | .stray => false
  | _ => true

/-- The name of the remainder at the end, if there is one. -/
def restName : Route → List Bytes
  | .literal _ next => next.restName
  | .paramThen _ next => next.restName
  | .remainder name => [name]
  | _ => []

/-- Every tail ends its segment, and one without `/` ends the pattern as well. -/
def Proper : Route → Prop
  | .literal _ next => next.Proper
  | .paramThen suffix next =>
      suffix ≠ [] ∧ Place.EndsSegment suffix ∧ (slash ∈ suffix ∨ next = .stop) ∧ next.Proper
  | _ => True

/-! ## Two routes in one tree -/

def isWildcard : Route → Bool
  | .stop => false
  | .literal _ _ => false
  | _ => true

/-- One of the two gets in the way of the other: they walk alike to an end that they share, or
to a place where one has a remainder and the other a wildcard as well. -/
def clashes : Route → Route → Bool
  | .stop, .stop => true
  | .literal byte next, .literal other later => byte = other && next.clashes later
  | .param, .param => true
  | .paramThen suffix next, .paramThen other later => suffix = other && next.clashes later
  | .remainder _, other => other.isWildcard
  | other, .remainder _ => other.isWildcard
  | _, _ => false

/-- The first one has two wildcards in a segment where the second one has, literally, the
text that a tree shows for the second of them. -/
def cuts : Route → Route → Bool
  | .literal byte next, .literal other later => byte = other && next.cuts later
  | .paramThen suffix next, .paramThen other later => suffix = other && next.cuts later
  | .crowded lead spelled _, .paramThen other _ => other = lead ++ spelled
  | _, _ => false

theorem cuts_of_plain {route : Route} (regular : route.plain = true) (other : Route) :
    route.cuts other = false := by
  induction route generalizing other with
  | literal byte next inductionHypothesis =>
      cases other with
      | literal asked later => simp [cuts, inductionHypothesis regular later]
      | _ => rfl
  | paramThen suffix next inductionHypothesis =>
      cases other with
      | paramThen asked later => simp [cuts, inductionHypothesis regular later]
      | _ => rfl
  | crowded lead spelled next => exact nomatch regular
  | _ => cases other <;> rfl

/-! ## Matching by routes -/

theorem tail_places {suffix : Bytes} {next : Route} (proper : (paramThen suffix next).Proper) :
    Place.tail (suffix.map .literal ++ next.places) = suffix := by
  obtain ⟨_, ⟨body, noSlash, rfl | rfl⟩, ends, _⟩ := proper
  · rcases ends with inside | rfl
    · exact absurd inside noSlash
    · simpa [places] using Place.tail_text suffix noSlash
  · exact Place.tail_text_slash body noSlash next.places

theorem fits_paramThen_iff {suffix : Bytes} {next : Route} {path : Bytes}
    {values : List Bytes} :
    Place.Fits (paramThen suffix next).places path values ↔
      ∃ value after others, value ≠ [] ∧ slash ∉ value ∧ path = value ++ suffix ++ after ∧
        values = value :: others ∧ Place.Fits next.places after others := by
  simp only [places, Place.fits_param_iff, Place.fits_text_iff]
  constructor
  · rintro ⟨value, _, others, filled, noSlash, rfl, rfl, after, rfl, fits⟩
    exact ⟨value, after, others, filled, noSlash, (List.append_assoc _ _ _).symm, rfl, fits⟩
  · rintro ⟨value, after, others, filled, noSlash, rfl, rfl, fits⟩
    exact ⟨value, suffix ++ after, others, filled, noSlash, List.append_assoc _ _ _, rfl, after,
      rfl, fits⟩

theorem fits_param_iff {path : Bytes} {values : List Bytes} :
    Place.Fits Route.param.places path values ↔
      path ≠ [] ∧ slash ∉ path ∧ values = [path] := by
  simp only [places, Place.fits_param_iff, Place.fits_nil_iff]
  constructor
  · rintro ⟨value, _, _, filled, noSlash, rfl, rfl, rfl, rfl⟩
    simpa using ⟨filled, noSlash⟩
  · rintro ⟨filled, noSlash, rfl⟩
    exact ⟨path, [], [], filled, noSlash, (List.append_nil path).symm, rfl, rfl, rfl⟩

/-! ## Overtaking by routes -/

/-- Where one pattern overtakes another, both begin with the same literal text. -/
theorem tail_eq_of_overtakes {winner loser : List Place} {path : Bytes}
    (overtakes : Place.Overtakes winner loser path) :
    Place.tail winner = Place.tail loser := by
  induction overtakes with
  | literal byte _ inductionHypothesis => simp only [Place.tail, inductionHypothesis]
  | param => rfl
  | longer => rfl

theorem overtakes_of_text (text : Bytes) {winner loser : List Place} {path : Bytes}
    (overtakes :
      Place.Overtakes (text.map .literal ++ winner) (text.map .literal ++ loser) path) :
    ∃ after, path = text ++ after ∧ Place.Overtakes winner loser after := by
  induction text generalizing path with
  | nil => exact ⟨path, rfl, overtakes⟩
  | cons byte text inductionHypothesis =>
      rw [List.map_cons, List.cons_append, List.cons_append,
        Place.overtakes_literal_iff] at overtakes
      obtain ⟨later, after, same, rfl, further⟩ := overtakes
      rw [List.cons_inj_right] at same
      subst same
      obtain ⟨rest, rfl, done⟩ := inductionHypothesis further
      exact ⟨rest, rfl, done⟩

theorem overtakes_paramThen {winner loser : Route} {long short : Bytes} {path : Bytes}
    (properWinner : (paramThen long winner).Proper)
    (properLoser : (paramThen short loser).Proper)
    (overtakes :
      Place.Overtakes (paramThen long winner).places (paramThen short loser).places path) :
    (∃ value after, value ≠ [] ∧ slash ∉ value ∧ path = value ++ long ++ after ∧
        (slash ∈ long ∨ after = []) ∧ short.length < long.length) ∨
      long = short ∧
        ∃ value after, value ≠ [] ∧ slash ∉ value ∧ path = value ++ short ++ after ∧
          Place.Overtakes winner.places loser.places after := by
  have tailWinner := tail_places properWinner
  have tailLoser := tail_places properLoser
  simp only [places] at overtakes
  cases overtakes with
  | param value filled noSlash further =>
      have same := tail_eq_of_overtakes further
      rw [tailWinner, tailLoser] at same
      subst same
      obtain ⟨after, rfl, done⟩ := overtakes_of_text long further
      exact Or.inr ⟨rfl, value, after, filled, noSlash, (List.append_assoc _ _ _).symm, done⟩
  | longer value after filled noSlash ends shorter =>
      rw [tailWinner] at ends ⊢
      rw [tailWinner, tailLoser] at shorter
      exact Or.inl ⟨value, after, filled, noSlash, rfl, ends, shorter⟩

theorem not_param_overtakes {loser : List Place} {path : Bytes} :
    ¬ Place.Overtakes Route.param.places loser path := by
  intro overtakes
  cases overtakes with
  | param value _ _ further => cases further
  | longer value after _ _ _ shorter => exact absurd shorter (Nat.not_lt_zero _)

theorem overtakes_param {suffix : Bytes} {next : Route} {path : Bytes}
    (proper : (paramThen suffix next).Proper)
    (overtakes : Place.Overtakes (paramThen suffix next).places Route.param.places path) :
    ∃ value after, value ≠ [] ∧ slash ∉ value ∧ path = value ++ suffix ++ after ∧
      (slash ∈ suffix ∨ after = []) := by
  have tailWinner := tail_places proper
  simp only [places] at overtakes
  cases overtakes with
  | param value _ _ further => exact absurd further Place.not_overtakes_nil
  | longer value after filled noSlash ends _ =>
      rw [tailWinner] at ends ⊢
      exact ⟨value, after, filled, noSlash, rfl, ends⟩

end Route

/-! ## From pieces to routes -/

/-- No segment holds two wildcards, and a remainder stands at the end only; with `behind` the
reader is behind a parameter, in its segment. -/
def Piece.spaced : Bool → List Piece → Bool
  | _, [] => true
  | behind, .literal byte :: rest => Piece.spaced (behind && byte != slash) rest
  | behind, .param _ :: rest => !behind && Piece.spaced true rest
  | behind, .remainder _ :: rest => !behind && rest.isEmpty

namespace Route

theorem plain_ofPiecesFrom (earlier : Nat) (opened : Option Bytes) (pieces : List Piece) :
    (ofPiecesFrom earlier opened pieces).plain = Piece.spaced opened.isSome pieces := by
  induction pieces generalizing earlier opened with
  | nil =>
      cases opened with
      | none => rfl
      | some reversed => cases reversed <;> rfl
  | cons piece rest inductionHypothesis =>
      cases piece with
      | literal byte =>
          cases opened with
          | none => simp [ofPiecesFrom, plain, Piece.spaced, inductionHypothesis]
          | some reversed =>
              by_cases divider : byte = slash
              · simp [ofPiecesFrom, plain, Piece.spaced, inductionHypothesis, divider]
              · have inside : (byte != slash) = true := bne_iff_ne.mpr divider
                simp [ofPiecesFrom, Piece.spaced, inductionHypothesis, divider, inside]
      | param name =>
          cases opened with
          | none => simp [ofPiecesFrom, Piece.spaced, inductionHypothesis]
          | some reversed => simp [ofPiecesFrom, plain, Piece.spaced]
      | remainder name =>
          cases opened with
          | none => cases rest <;> simp [ofPiecesFrom, plain, Piece.spaced]
          | some reversed => simp [ofPiecesFrom, plain, Piece.spaced]

/-- The part of a route that the reader has collected already. -/
def started : Option Bytes → List Place
  | none => []
  | some reversed => .param :: reversed.reverse.map .literal

/-- The places of a route go on as those of its pattern, and stop short of them behind a
misplaced remainder only. -/
theorem places_ofPiecesFrom (earlier : Nat) (opened : Option Bytes) (pieces : List Piece) :
    ∃ more, started opened ++ pieces.map Piece.place =
        (ofPiecesFrom earlier opened pieces).places ++ more ∧
      (more ≠ [] →
        (ofPiecesFrom earlier opened pieces).plain = false ∧
          (ofPiecesFrom earlier opened pieces).places.getLast? = some .remainder) := by
  induction pieces generalizing earlier opened with
  | nil =>
      refine ⟨[], ?_, fun filled => absurd rfl filled⟩
      cases opened with
      | none => rfl
      | some reversed =>
          cases reversed <;> simp [started, ofPiecesFrom, places]
  | cons piece rest inductionHypothesis =>
      cases piece with
      | literal byte =>
          cases opened with
          | none =>
              obtain ⟨more, same, stops⟩ := inductionHypothesis earlier none
              simp only [started, List.nil_append] at same
              refine ⟨more, ?_, fun filled => ?_⟩
              · simp [started, ofPiecesFrom, places, Piece.place, same]
              · obtain ⟨crossed, last⟩ := stops filled
                simp only [ofPiecesFrom, plain, places, List.getLast?_cons, last, crossed,
                  Option.getD_some, and_self]
          | some reversed =>
              by_cases divider : byte = slash
              · obtain ⟨more, same, stops⟩ := inductionHypothesis earlier none
                simp only [started, List.nil_append] at same
                refine ⟨more, ?_, fun filled => ?_⟩
                · simp [started, ofPiecesFrom, places, Piece.place, same, divider]
                · obtain ⟨crossed, last⟩ := stops filled
                  simp only [ofPiecesFrom, if_pos divider, plain, places, List.getLast?_cons,
                    List.getLast?_append, last, crossed, Option.some_or, Option.getD_some,
                    and_self]
              · obtain ⟨more, same, stops⟩ := inductionHypothesis earlier (some (byte :: reversed))
                simp only [ofPiecesFrom, if_neg divider]
                refine ⟨more, ?_, stops⟩
                rw [← same]
                simp [started, Piece.place]
      | param name =>
          obtain ⟨more, same, stops⟩ := inductionHypothesis (earlier + 1) (some [])
          simp only [started, List.reverse_nil, List.map_nil] at same
          cases opened with
          | none =>
              refine ⟨more, ?_, fun filled => stops filled⟩
              simpa [started, ofPiecesFrom, Piece.place] using same
          | some reversed =>
              refine ⟨more, ?_, fun filled => ?_⟩
              · simpa [started, ofPiecesFrom, places, Piece.place] using same
              · obtain ⟨_, last⟩ := stops filled
                simp only [ofPiecesFrom, plain, places, List.getLast?_cons,
                  List.getLast?_append, last, Option.some_or, Option.getD_some, and_self]
      | remainder name =>
          cases opened with
          | none =>
              cases rest with
              | nil => exact ⟨[], rfl, fun filled => absurd rfl filled⟩
              | cons next further =>
                  exact ⟨(next :: further).map Piece.place, rfl, fun _ => ⟨rfl, rfl⟩⟩
          | some reversed =>
              refine ⟨rest.map Piece.place, ?_, fun filled => ?_⟩
              · by_cases last : rest = []
                · simp [started, ofPiecesFrom, places, Piece.place, last]
                · simp [started, ofPiecesFrom, places, Piece.place, last]
              · have more : rest ≠ [] := by
                  rintro rfl
                  exact filled rfl
                simp [ofPiecesFrom, plain, places, more, List.getLast?_cons]

theorem places_ofPieces {pieces : List Piece} (regular : (ofPieces pieces).plain = true) :
    (ofPieces pieces).places = pieces.map Piece.place := by
  obtain ⟨more, same, stops⟩ := places_ofPiecesFrom 0 none pieces
  by_cases filled : more = []
  · subst filled
    simpa [started, ofPieces] using same.symm
  · exact absurd regular (by simp [ofPieces, (stops filled).1])

theorem proper_ofPiecesFrom (earlier : Nat) (opened : Option Bytes) (pieces : List Piece)
    (noSlash : ∀ reversed, opened = some reversed → slash ∉ reversed) :
    (ofPiecesFrom earlier opened pieces).Proper := by
  induction pieces generalizing earlier opened with
  | nil =>
      cases opened with
      | none => trivial
      | some reversed =>
          have plainTail := noSlash reversed rfl
          cases reversed with
          | nil => trivial
          | cons byte others =>
              refine ⟨by simp, ⟨_, ?_, Or.inl rfl⟩, Or.inr rfl, trivial⟩
              rwa [List.mem_reverse]
  | cons piece rest inductionHypothesis =>
      cases piece with
      | literal byte =>
          cases opened with
          | none => exact inductionHypothesis earlier none (fun _ impossible => nomatch impossible)
          | some reversed =>
              have plainTail := noSlash reversed rfl
              by_cases divider : byte = slash
              · simp only [ofPiecesFrom, if_pos divider]
                refine ⟨by simp, ⟨reversed.reverse, by simpa using plainTail, Or.inr rfl⟩,
                  Or.inl (by simp), ?_⟩
                exact inductionHypothesis earlier none (fun _ impossible => nomatch impossible)
              · simp only [ofPiecesFrom, if_neg divider]
                refine inductionHypothesis earlier _ ?_
                rintro _ ⟨⟩
                rw [List.mem_cons, not_or]
                exact ⟨Ne.symm divider, plainTail⟩
      | param name =>
          cases opened with
          | none =>
              refine inductionHypothesis (earlier + 1) (some []) ?_
              rintro _ ⟨⟩
              exact List.not_mem_nil
          | some reversed => simp only [ofPiecesFrom, Proper]
      | remainder name =>
          cases opened with
          | none => cases rest <;> trivial
          | some reversed => simp only [ofPiecesFrom, Proper]

theorem proper_ofPieces (pieces : List Piece) : (ofPieces pieces).Proper :=
  proper_ofPiecesFrom 0 none pieces fun _ impossible => nomatch impossible

/-! ## Overtaking by patterns that are no routes -/

private theorem stops_behind {place : Place} {rest more : List Place}
    (other : place ≠ .remainder)
    (stops : more ≠ [] → (place :: rest).getLast? = some .remainder) :
    more ≠ [] → rest.getLast? = some .remainder := by
  intro filled
  have last := stops filled
  cases rest with
  | nil => exact absurd (Option.some.inj last) other
  | cons next further => simpa [List.getLast?_cons] using last

theorem tail_append {places more : List Place}
    (stops : more ≠ [] → places.getLast? = some .remainder) :
    Place.tail (places ++ more) = Place.tail places := by
  induction places with
  | nil =>
      by_cases filled : more = []
      · simp [filled]
      · exact nomatch stops filled
  | cons place rest inductionHypothesis =>
      cases place with
      | literal byte =>
          have later := stops_behind (by simp) stops
          simp only [List.cons_append, Place.tail, inductionHypothesis later]
      | param => rfl
      | remainder => rfl

theorem overtakes_append {winner loser more : List Place} {path : Bytes}
    (stops : more ≠ [] → winner.getLast? = some .remainder)
    (overtakes : Place.Overtakes winner loser path) :
    Place.Overtakes (winner ++ more) loser path := by
  induction overtakes with
  | literal byte _ inductionHypothesis =>
      exact Place.Overtakes.literal byte (inductionHypothesis (stops_behind (by simp) stops))
  | param value filled noSlash _ inductionHypothesis =>
      exact Place.Overtakes.param value filled noSlash
        (inductionHypothesis (stops_behind (by simp) stops))
  | longer value after filled noSlash ends shorter =>
      have same := tail_append (stops_behind (by simp) stops)
      rw [← same] at ends shorter ⊢
      exact Place.Overtakes.longer value after filled noSlash ends shorter

/-- What the route of a pattern overtakes is overtaken by the pattern. -/
theorem overtakes_ofPieces {pieces : List Piece} {loser : List Place} {path : Bytes}
    (overtakes : Place.Overtakes (ofPieces pieces).places loser path) :
    Place.Overtakes (pieces.map Piece.place) loser path := by
  obtain ⟨more, same, stops⟩ := places_ofPiecesFrom 0 none pieces
  simp only [started, List.nil_append] at same
  rw [same]
  exact overtakes_append (fun filled => (stops filled).2) overtakes

end Route

end FunctionGateway.Routing
