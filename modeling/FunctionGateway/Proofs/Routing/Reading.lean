import FunctionGateway.Proofs.Routing.Grouping
import FunctionGateway.Proofs.Text.Splitting

/-!
# Reading patterns

How a pattern's text spells its pieces, told by a grammar.  The reader keeps to it for every
pattern that can be bound: where its quoting slips, behind a parameter with a long name,
it ends up with a fault or with two wildcards in a segment.
-/

namespace FunctionGateway.Routing

open FunctionGateway.Text

/-- What may stand in a name behind its first byte. -/
def Glyph.InName (glyph : Glyph) : Prop :=
  glyph ≠ ⟨braceClose, false⟩ ∧ glyph.byte ≠ star ∧ glyph.byte ≠ slash

/-- The grammar of patterns. -/
inductive Piece.Spells : List Glyph → List Piece → Prop
  | done : Spells [] []
  | literal (glyph : Glyph) {rest : List Glyph} {pieces : List Piece} :
      glyph ≠ ⟨braceOpen, false⟩ →
      glyph ≠ ⟨braceClose, false⟩ →
      Spells rest pieces →
      Spells (glyph :: rest) (.literal glyph.byte :: pieces)
  | param (first : Glyph) (more : List Glyph) {rest : List Glyph} {pieces : List Piece} :
      first.byte ≠ braceClose →
      first.byte ≠ star →
      (∀ glyph ∈ more, glyph.InName) →
      Spells rest pieces →
      Spells (⟨braceOpen, false⟩ :: first :: (more ++ ⟨braceClose, false⟩ :: rest))
        (.param (first.byte :: more.map Glyph.byte) :: pieces)
  | remainder (first : Glyph) (more : List Glyph) {rest : List Glyph} {pieces : List Piece} :
      first.byte = star →
      more ≠ [] →
      (∀ glyph ∈ more, glyph.InName) →
      Spells rest pieces →
      Spells (⟨braceOpen, false⟩ :: first :: (more ++ ⟨braceClose, false⟩ :: rest))
        (.remainder (more.map Glyph.byte) :: pieces)

/-- The glyphs of a pattern's text spell these pieces. -/
def Piece.Spelled (source : String) (pieces : List Piece) : Prop :=
  Piece.Spells (Glyph.read (encodeUtf8 source)) pieces

/-! ## One text, one reading -/

theorem Glyph.names_unique {first second : List Glyph} {rest other : List Glyph}
    (plainFirst : ∀ glyph ∈ first, glyph.InName) (plainSecond : ∀ glyph ∈ second, glyph.InName)
    (same : first ++ ⟨braceClose, false⟩ :: rest = second ++ ⟨braceClose, false⟩ :: other) :
    first = second ∧ rest = other := by
  induction first generalizing second with
  | nil =>
      cases second with
      | nil => exact ⟨rfl, (List.cons.inj same).2⟩
      | cons glyph more =>
          exact absurd (List.cons.inj same).1.symm (plainSecond glyph List.mem_cons_self).1
  | cons glyph more inductionHypothesis =>
      cases second with
      | nil => exact absurd (List.cons.inj same).1 (plainFirst glyph List.mem_cons_self).1
      | cons asked others =>
          obtain ⟨rfl, further⟩ := List.cons.inj same
          obtain ⟨rfl, rfl⟩ := inductionHypothesis
            (fun inner member => plainFirst inner (List.mem_cons_of_mem _ member))
            (fun inner member => plainSecond inner (List.mem_cons_of_mem _ member)) further
          exact ⟨rfl, rfl⟩

theorem Piece.Spells.unique {glyphs : List Glyph} {first second : List Piece}
    (left : Piece.Spells glyphs first) (right : Piece.Spells glyphs second) : first = second := by
  induction left generalizing second with
  | done =>
      cases right
      rfl
  | literal glyph notOpen notClose _ inductionHypothesis =>
      cases right with
      | literal _ _ _ further => rw [inductionHypothesis further]
      | param => exact absurd rfl notOpen
      | remainder => exact absurd rfl notOpen
  | param first more notClose notStar names _ inductionHypothesis =>
      generalize whole : (⟨braceOpen, false⟩ :: first :: (more ++ ⟨braceClose, false⟩ :: _) :
        List Glyph) = glyphs at right
      cases right with
      | done => exact nomatch whole
      | literal _ notOpen => exact absurd (List.cons.inj whole).1.symm notOpen
      | param _ _ _ _ namesOther further =>
          obtain ⟨rfl, behind⟩ := List.cons.inj (List.cons.inj whole).2
          obtain ⟨rfl, rfl⟩ := Glyph.names_unique names namesOther behind
          rw [inductionHypothesis further]
      | remainder _ _ isStar =>
          obtain ⟨rfl, _⟩ := List.cons.inj (List.cons.inj whole).2
          exact absurd isStar notStar
  | remainder first more isStar nonempty names _ inductionHypothesis =>
      generalize whole : (⟨braceOpen, false⟩ :: first :: (more ++ ⟨braceClose, false⟩ :: _) :
        List Glyph) = glyphs at right
      cases right with
      | done => exact nomatch whole
      | literal _ notOpen => exact absurd (List.cons.inj whole).1.symm notOpen
      | param _ _ _ notStar =>
          obtain ⟨rfl, _⟩ := List.cons.inj (List.cons.inj whole).2
          exact absurd isStar notStar
      | remainder _ _ _ _ namesOther further =>
          obtain ⟨rfl, behind⟩ := List.cons.inj (List.cons.inj whole).2
          obtain ⟨rfl, rfl⟩ := Glyph.names_unique names namesOther behind
          rw [inductionHypothesis further]

/-! ## The reader keeps to the grammar -/

/-- The glyphs of the wildcard that the reader is in the middle of. -/
def Piece.Reading.Has : Piece.Reading → List Glyph → Prop
  | .outside _, taken => taken = []
  | .opened, taken => taken = [⟨braceOpen, false⟩]
  | .naming reversed, taken =>
      ∃ first more, taken = ⟨braceOpen, false⟩ :: first :: more ∧
        reversed.reverse = first.byte :: more.map Glyph.byte ∧ first.byte ≠ braceClose ∧
        ∀ glyph ∈ more, glyph.InName

theorem Glyph.read_quoted {bytes : Bytes} {glyph : Glyph} (member : glyph ∈ Glyph.read bytes)
    (quoted : glyph.quoted = true) : glyph.byte = braceOpen ∨ glyph.byte = braceClose := by
  induction bytes using Glyph.read.induct with
  | case1 => exact absurd member List.not_mem_nil
  | case2 last =>
      rw [Glyph.read, List.mem_singleton] at member
      subst member
      cases quoted
  | case3 first second rest double inductionHypothesis =>
      rw [Glyph.read, if_pos double] at member
      rcases List.mem_cons.mp member with rfl | later
      · exact double.2
      · exact inductionHypothesis later
  | case4 first second rest single inductionHypothesis =>
      rw [Glyph.read, if_neg single] at member
      rcases List.mem_cons.mp member with rfl | later
      · cases quoted
      · exact inductionHypothesis later

theorem Piece.map_ok {fault : Type} {read : Except fault (List Piece)} {piece : Piece}
    {pieces : List Piece} (done : read.map (piece :: ·) = .ok pieces) :
    ∃ rest, read = .ok rest ∧ pieces = piece :: rest := by
  cases read with
  | error cause => exact nomatch done
  | ok rest => exact ⟨rest, rfl, (Except.ok.inj done).symm⟩

theorem Piece.markAt_false {marks : List Bool} (unmarked : ∀ mark ∈ marks, mark = false) :
    marks.headD false = false ∧ ∀ mark ∈ marks.tail, mark = false := by
  cases marks with
  | nil => exact ⟨rfl, nofun⟩
  | cons mark rest =>
      exact ⟨unmarked mark List.mem_cons_self,
        fun other member => unmarked other (List.mem_cons_of_mem _ member)⟩

/-! What the reader does with one glyph that no late mark has fallen on. -/

section Step

variable {glyph : Glyph} {rest : List Glyph} {room : Nat} {late : List Bool} {pieces : List Piece}

theorem Piece.readFrom_outside_cases {slip : Nat} (unmarked : late.headD false = false)
    (brace : glyph.quoted = true → glyph.byte = braceOpen ∨ glyph.byte = braceClose)
    (done : Piece.readFrom room (.outside slip) late (glyph :: rest) = .ok pieces) :
    (slip = 0 ∧ glyph = ⟨braceOpen, false⟩ ∧
        Piece.readFrom room .opened late.tail rest = .ok pieces) ∨
      (slip ≠ 0 ∧ ∃ marks, Piece.readFrom room .opened marks rest = .ok pieces) ∨
      (glyph ≠ ⟨braceOpen, false⟩ ∧ glyph ≠ ⟨braceClose, false⟩ ∧ ∃ others,
        Piece.readFrom room (.outside 0) late.tail rest = .ok others ∧
          pieces = .literal glyph.byte :: others) := by
  rw [Piece.readFrom, unmarked, Bool.or_false] at done
  by_cases closing : glyph.byte = braceClose ∧ (glyph.quoted && slip == 0) = false
  · simp only [if_pos closing] at done
    cases done
  · simp only [if_neg closing] at done
    by_cases opening : glyph.byte = braceOpen ∧ (glyph.quoted && slip == 0) = false
    · simp only [if_pos opening] at done
      by_cases near : slip = 0
      · subst near
        have isOpen : glyph = ⟨braceOpen, false⟩ := by
          obtain ⟨byte, quoted⟩ := glyph
          simpa using opening
        subst isOpen
        simp only [Bool.false_and, Bool.false_eq_true, if_false] at done
        exact Or.inl ⟨rfl, rfl, done⟩
      · exact Or.inr (Or.inl ⟨near, _, done⟩)
    · simp only [if_neg opening] at done
      obtain ⟨others, readOthers, same⟩ := Piece.map_ok done
      -- A quoted glyph is a brace, and a brace whose quoting slips is no literal.
      have single : (glyph.quoted && slip != 0) = false := by
        by_cases near : slip = 0
        · simp [near]
        · have far : (slip == 0) = false := beq_false_of_ne near
          simp only [far, Bool.and_false, and_true] at closing opening
          cases quoted : glyph.quoted with
          | false => rfl
          | true =>
              rcases brace quoted with isOpen | isClose
              · exact absurd isOpen opening
              · exact absurd isClose closing
      simp only [single, Bool.false_eq_true, if_false] at readOthers
      refine Or.inr (Or.inr ⟨?_, ?_, others, readOthers, same⟩)
      · rintro rfl
        exact opening ⟨rfl, rfl⟩
      · rintro rfl
        exact closing ⟨rfl, rfl⟩

theorem Piece.readFrom_opened_cases
    (done : Piece.readFrom room .opened late (glyph :: rest) = .ok pieces) :
    glyph.byte ≠ braceClose ∧
      Piece.readFrom room (.naming [glyph.byte]) late.tail rest = .ok pieces := by
  rw [Piece.readFrom] at done
  by_cases closing : glyph.byte = braceClose
  · rw [if_pos closing] at done
    cases done
  · rw [if_neg closing] at done
    exact ⟨closing, done⟩

theorem Piece.readFrom_naming_cases {reversed more : Bytes} {first : UInt8}
    (unmarked : late.headD false = false) (spelled : reversed.reverse = first :: more)
    (done : Piece.readFrom room (.naming reversed) late (glyph :: rest) = .ok pieces) :
    (glyph = ⟨braceClose, false⟩ ∧ first = star ∧ more ≠ [] ∧ ∃ others,
        Piece.readFrom room (.outside 0) late.tail rest = .ok others ∧
          pieces = .remainder more :: others) ∨
      (glyph = ⟨braceClose, false⟩ ∧ first ≠ star ∧ ∃ fewer others,
        Piece.readFrom fewer (.outside more.length) late.tail rest = .ok others ∧
          pieces = .param (first :: more) :: others) ∨
      (glyph.InName ∧
        Piece.readFrom room (.naming (glyph.byte :: reversed)) late.tail rest = .ok pieces) := by
  rw [Piece.readFrom, unmarked, Bool.or_false] at done
  by_cases closing : glyph.byte = braceClose ∧ glyph.quoted = false
  · rw [if_pos closing, spelled] at done
    have isClose : glyph = ⟨braceClose, false⟩ := by
      obtain ⟨byte, quoted⟩ := glyph
      simpa using closing
    simp only at done
    by_cases isStar : first = star
    · rw [if_pos isStar] at done
      by_cases bare : more = []
      · rw [if_pos bare] at done
        cases done
      · rw [if_neg bare] at done
        exact Or.inl ⟨isClose, isStar, bare, Piece.map_ok done⟩
    · rw [if_neg isStar] at done
      cases room with
      | zero => cases done
      | succ fewer => exact Or.inr (Or.inl ⟨isClose, isStar, fewer, Piece.map_ok done⟩)
  · rw [if_neg closing] at done
    by_cases fault : glyph.byte = star ∨ glyph.byte = slash
    · rw [if_pos fault] at done
      cases done
    · rw [if_neg fault] at done
      refine Or.inr (Or.inr ⟨⟨?_, not_or.mp fault⟩, done⟩)
      rintro rfl
      exact closing ⟨rfl, rfl⟩

end Step

/-- A wildcard directly behind a parameter is one too many. -/
theorem Piece.spaced_of_reading {glyphs : List Glyph} {room : Nat} {reading : Piece.Reading}
    {late : List Bool} {pieces : List Piece}
    (done : Piece.readFrom room reading late glyphs = .ok pieces)
    (inside : ∀ slip, reading ≠ .outside slip) : Piece.spaced true pieces = false := by
  induction glyphs generalizing reading late with
  | nil =>
      cases reading with
      | outside slip => exact absurd rfl (inside slip)
      | opened => exact nomatch done
      | naming reversed => exact nomatch done
  | cons glyph rest inductionHypothesis =>
      cases reading with
      | outside slip => exact absurd rfl (inside slip)
      | opened => exact inductionHypothesis (Piece.readFrom_opened_cases done).2 nofun
      | naming reversed =>
          rw [Piece.readFrom] at done
          split at done
          · split at done
            · exact nomatch done
            · split at done
              · split at done
                · exact nomatch done
                · obtain ⟨_, _, rfl⟩ := Piece.map_ok done
                  rfl
              · split at done
                · exact nomatch done
                · obtain ⟨_, _, rfl⟩ := Piece.map_ok done
                  rfl
          · split at done
            · exact nomatch done
            · exact inductionHypothesis done nofun

theorem Piece.spells_of_readFrom {glyphs taken : List Glyph} {room : Nat}
    {reading : Piece.Reading} {late : List Bool} {pieces : List Piece} {behind : Bool}
    (braces : ∀ glyph ∈ glyphs, glyph.quoted = true →
      glyph.byte = braceOpen ∨ glyph.byte = braceClose)
    (done : Piece.readFrom room reading late glyphs = .ok pieces)
    (unmarked : ∀ mark ∈ late, mark = false) (has : reading.Has taken)
    (regular : Piece.spaced behind pieces = true)
    (slips : ∀ slip, reading = .outside slip → slip ≠ 0 → behind = true) :
    Piece.Spells (taken ++ glyphs) pieces := by
  induction glyphs generalizing room reading late pieces behind taken with
  | nil =>
      cases reading with
      | outside slip =>
          cases has
          cases done
          exact Piece.Spells.done
      | opened => cases done
      | naming reversed => cases done
  | cons glyph rest inductionHypothesis =>
      have later := fun inner member => braces inner (List.mem_cons_of_mem _ member)
      obtain ⟨fresh, unmarkedLater⟩ := Piece.markAt_false unmarked
      have noSlip : ∀ {behind : Bool} slip, Piece.Reading.outside 0 = .outside slip → slip ≠ 0 →
          behind = true :=
        fun slip same nonzero => absurd (Piece.Reading.outside.inj same).symm nonzero
      cases reading with
      | outside slip =>
          cases has
          rcases Piece.readFrom_outside_cases fresh (braces glyph List.mem_cons_self) done with
            ⟨_, rfl, further⟩ | ⟨slipped, _, further⟩ | ⟨notOpen, notClose, others, further, rfl⟩
          · exact inductionHypothesis later further unmarkedLater rfl regular
              (fun _ isOutside => by cases isOutside)
          · -- The slip tells of a parameter directly before this wildcard.
            rw [slips slip rfl slipped] at regular
            rw [Piece.spaced_of_reading further (fun _ isOutside => by cases isOutside)] at regular
            cases regular
          · exact Piece.Spells.literal glyph notOpen notClose
              (inductionHypothesis later further unmarkedLater rfl regular noSlip)
      | opened =>
          cases has
          obtain ⟨notClose, further⟩ := Piece.readFrom_opened_cases done
          have whole : Piece.Spells ([⟨braceOpen, false⟩, glyph] ++ rest) pieces :=
            inductionHypothesis later further unmarkedLater
              ⟨glyph, [], rfl, rfl, notClose, fun _ => False.elim ∘ List.not_mem_nil⟩ regular
              (fun _ isOutside => by cases isOutside)
          exact whole
      | naming reversed =>
          obtain ⟨first, more, rfl, spelled, notClose, names⟩ := has
          rcases Piece.readFrom_naming_cases fresh spelled done with
            ⟨rfl, isStar, nonempty, others, further, rfl⟩ |
              ⟨rfl, notStar, fewer, others, further, rfl⟩ | ⟨inName, further⟩
          · rw [Piece.spaced, Bool.and_eq_true, List.isEmpty_iff] at regular
            obtain ⟨_, rfl⟩ := regular
            have ended : Piece.spaced false [] = true := rfl
            exact Piece.Spells.remainder first more isStar (fun none => nonempty (by simp [none]))
              names (inductionHypothesis later further unmarkedLater rfl ended noSlip)
          · rw [Piece.spaced, Bool.and_eq_true] at regular
            exact Piece.Spells.param first more notClose notStar names
              (inductionHypothesis later further unmarkedLater rfl regular.2 fun _ _ _ => rfl)
          · have namesNow : ∀ inner ∈ more ++ [glyph], inner.InName := by
              intro inner member
              rcases List.mem_append.mp member with before | last
              · exact names inner before
              · rw [List.mem_singleton.mp last]
                exact inName
            have whole : Piece.Spells
                (⟨braceOpen, false⟩ :: first :: (more ++ [glyph]) ++ rest) pieces :=
              inductionHypothesis later further unmarkedLater
                ⟨first, more ++ [glyph], rfl, by simp [spelled], notClose, namesNow⟩ regular
                (fun _ isOutside => by cases isOutside)
            simpa using whole

/-! ## Patterns that are regular -/

def Piece.name? : Piece → Option Bytes
  | .literal _ => none
  | .param name => some name
  | .remainder name => some name

theorem Piece.names_eq (earlier : Nat) (opened : Option Bytes) {pieces : List Piece}
    (regular : Piece.spaced opened.isSome pieces = true) :
    pieces.filterMap Piece.name? =
      pieces.filterMap Piece.paramName? ++ (Route.ofPiecesFrom earlier opened pieces).restName := by
  induction pieces generalizing earlier opened with
  | nil =>
      cases opened with
      | none => rfl
      | some reversed => cases reversed <;> rfl
  | cons piece rest inductionHypothesis =>
      cases piece with
      | literal byte =>
          cases opened with
          | none =>
              simpa [List.filterMap_cons, Piece.name?, Piece.paramName?, Route.ofPiecesFrom,
                Route.restName] using inductionHypothesis earlier none regular
          | some reversed =>
              by_cases divider : byte = slash
              · simpa [List.filterMap_cons, Piece.name?, Piece.paramName?, Route.ofPiecesFrom,
                  Route.restName, divider] using
                    inductionHypothesis earlier none
                      (by simpa [Piece.spaced, divider] using regular)
              · have inside : (byte != slash) = true := bne_iff_ne.mpr divider
                simpa [List.filterMap_cons, Piece.name?, Piece.paramName?, Route.ofPiecesFrom,
                  divider] using
                    inductionHypothesis earlier (some (byte :: reversed))
                      (by simpa [Piece.spaced, inside] using regular)
      | param name =>
          cases opened with
          | some reversed => cases regular
          | none =>
              simpa [List.filterMap_cons, Piece.name?, Piece.paramName?, Route.ofPiecesFrom] using
                inductionHypothesis (earlier + 1) (some []) regular
      | remainder name =>
          cases opened with
          | some reversed => cases regular
          | none =>
              cases rest with
              | nil => rfl
              | cons next further => cases regular

theorem Pattern.read?_eq_ok {source : String} {pattern : Pattern}
    (read : Pattern.read? source = .ok pattern) :
    ∃ pieces, Piece.read? source = .ok pieces ∧
      pattern = ⟨pieces.filterMap Piece.paramName?, Route.ofPieces pieces⟩ := by
  rw [Pattern.read?] at read
  cases pieces : Piece.read? source with
  | error fault =>
      rw [pieces] at read
      exact nomatch read
  | ok own =>
      rw [pieces] at read
      exact ⟨own, rfl, (Except.ok.inj read).symm⟩

theorem Piece.spelled_of_read {source : String} {pieces : List Piece}
    (read : Piece.read? source = .ok pieces) (regular : Piece.spaced false pieces = true) :
    Piece.Spelled source pieces :=
  Piece.spells_of_readFrom (fun _ => Glyph.read_quoted) read nofun rfl regular
    fun _ same nonzero => absurd (Piece.Reading.outside.inj same).symm nonzero

/-- A regular pattern is what its text spells. -/
theorem Pattern.spelled {source : String} {pattern : Pattern}
    (read : Pattern.read? source = .ok pattern) (regular : pattern.route.plain = true) :
    ∃ pieces, Piece.Spelled source pieces ∧ Piece.spaced false pieces = true ∧
      pattern.route.places = pieces.map Piece.place ∧
      pattern.params ++ pattern.route.restName = pieces.filterMap Piece.name? := by
  obtain ⟨pieces, readPieces, rfl⟩ := Pattern.read?_eq_ok read
  have spaced : Piece.spaced false pieces = true := by
    rw [← regular]
    exact (Route.plain_ofPiecesFrom 0 none pieces).symm
  exact ⟨pieces, Piece.spelled_of_read readPieces spaced, spaced, Route.places_ofPieces regular,
    (Piece.names_eq 0 none spaced).symm⟩

/-! ## Names and values are texts -/

theorem isText_braceOpen : IsText [braceOpen] :=
  ⟨"\x7b", by decide⟩

theorem isText_braceClose : IsText [braceClose] :=
  ⟨"\x7d", by decide⟩

theorem isText_star : IsText [star] :=
  ⟨"*", by decide⟩

theorem isText_slash : IsText [slash] :=
  ⟨"/", by decide⟩

/-- Doubled braces are read as one, and that leaves a text a text. -/
theorem Glyph.isText_read {front bytes : Bytes} (whole : IsText (front ++ bytes)) :
    IsText (front ++ (Glyph.read bytes).map Glyph.byte) := by
  induction bytes using Glyph.read.induct generalizing front with
  | case1 => exact whole
  | case2 last => exact whole
  | case3 first second rest double inductionHypothesis =>
      obtain ⟨rfl, brace⟩ := double
      rw [Glyph.read, if_pos ⟨rfl, brace⟩, List.map_cons, List.append_cons]
      refine inductionHypothesis ?_
      have single : IsText [first] := by
        rcases brace with rfl | rfl
        · exact isText_braceOpen
        · exact isText_braceClose
      have begins := single.first
      have before := (whole.split begins).1
      have behind := single.cancel (single.cancel (before.cancel whole))
      simpa using before.append (single.append behind)
  | case4 first second rest single inductionHypothesis =>
      rw [Glyph.read, if_neg single, List.map_cons, List.append_cons]
      refine inductionHypothesis ?_
      simpa using whole

theorem isText_wildcard {front name rest : Bytes}
    (whole : IsText (front ++ braceOpen :: (name ++ braceClose :: rest))) :
    IsText front ∧ IsText name ∧ IsText rest := by
  obtain ⟨before, opened⟩ := whole.split isText_braceOpen.first
  obtain ⟨inside, closed⟩ := (isText_braceOpen.cancel opened).split isText_braceClose.first
  exact ⟨before, inside, isText_braceClose.cancel closed⟩

theorem Piece.Spells.isText_names {glyphs : List Glyph} {pieces : List Piece}
    (spells : Piece.Spells glyphs pieces) {front : Bytes}
    (whole : IsText (front ++ glyphs.map Glyph.byte)) :
    ∀ name ∈ pieces.filterMap Piece.name?, IsText name := by
  induction spells generalizing front with
  | done => exact nofun
  | literal glyph _ _ _ inductionHypothesis =>
      rw [List.map_cons, List.append_cons] at whole
      exact inductionHypothesis whole
  | param first more _ _ _ _ inductionHypothesis =>
      have parts := @isText_wildcard front (first.byte :: more.map Glyph.byte) _
        (by simpa using whole)
      intro name member
      rw [List.filterMap_cons_some (rfl : Piece.name? (.param _) = some _)] at member
      rcases List.mem_cons.mp member with rfl | later
      · exact parts.2.1
      · exact @inductionHypothesis [] parts.2.2 name later
  | remainder first more isStar _ _ _ inductionHypothesis =>
      have parts := @isText_wildcard front (first.byte :: more.map Glyph.byte) _
        (by simpa using whole)
      intro name member
      rw [List.filterMap_cons_some (rfl : Piece.name? (.remainder _) = some _)] at member
      rcases List.mem_cons.mp member with rfl | later
      · have spelled := parts.2.1
        rw [isStar] at spelled
        exact isText_star.cancel spelled
      · exact @inductionHypothesis [] parts.2.2 name later

/-- A text that a pattern matches is divided into texts. -/
theorem Piece.Spells.isText_values {glyphs : List Glyph} {pieces : List Piece}
    (spells : Piece.Spells glyphs pieces) {front path : Bytes} {values : List Bytes}
    {behind : Bool} (pattern : IsText (front ++ glyphs.map Glyph.byte))
    (whole : IsText (front ++ path)) (regular : Piece.spaced behind pieces = true)
    (fits : Place.Fits (pieces.map Piece.place) path values) :
    ∀ value ∈ values, IsText value := by
  induction spells generalizing front path values behind with
  | done =>
      cases fits
      exact nofun
  | literal glyph _ _ _ inductionHypothesis =>
      obtain ⟨after, rfl, further⟩ := Place.fits_literal_iff.mp fits
      rw [List.map_cons, List.append_cons] at pattern
      rw [List.append_cons] at whole
      exact inductionHypothesis pattern whole regular further
  | @param first more rest pieces _ _ _ spellsRest inductionHypothesis =>
      obtain ⟨before, _, behindName⟩ := @isText_wildcard front (first.byte :: more.map Glyph.byte)
        (rest.map Glyph.byte) (by simpa using pattern)
      obtain ⟨value, after, others, _, _, rfl, rfl, further⟩ := Place.fits_param_iff.mp fits
      rw [Piece.spaced, Bool.and_eq_true] at regular
      have left := before.cancel whole
      -- The value ends where the pattern goes on with the first byte of a character.
      have divided : IsText value ∧ IsText after := by
        cases spellsRest with
        | done =>
            obtain ⟨rfl, _⟩ := Place.fits_nil_iff.mp further
            rw [List.append_nil] at left
            exact ⟨left, IsText.nil⟩
        | literal glyph =>
            obtain ⟨_, rfl, _⟩ := Place.fits_literal_iff.mp further
            exact left.split behindName.first
        | param => cases regular.2
        | remainder => cases regular.2
      intro other member
      rcases List.mem_cons.mp member with rfl | later
      · exact divided.1
      · exact @inductionHypothesis [] after others true behindName divided.2 regular.2 further other
          later
  | @remainder first more rest pieces _ _ _ _ _ =>
      obtain ⟨before, _, _⟩ := @isText_wildcard front (first.byte :: more.map Glyph.byte)
        (rest.map Glyph.byte) (by simpa using pattern)
      obtain ⟨_, _, rfl⟩ := Place.fits_remainder_iff.mp fits
      intro value member
      rw [List.mem_singleton.mp member]
      exact before.cancel whole

end FunctionGateway.Routing
