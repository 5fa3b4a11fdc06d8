import FunctionGateway.Proofs.Routing.Growth

/-!
# What a search finds

A search answers with the first of the bound routes that match the path and are still in, and
with nothing if there is none.  A route is out if another one that was tried overtakes
it: behind a parameter the longest tail that fits is taken for good.
-/

namespace FunctionGateway.Routing

open FunctionGateway.Text

variable {α : Type}

/-- A route that was tried takes the path away from this one. -/
def Overtaken (tried : Route → Prop) (route : Route) (path : Bytes) : Prop :=
  ∃ winner, tried winner ∧ Place.Overtakes winner.places route.places path

/-- What a leaf gives a path that its route leads to. -/
def Leaf.along (leaf : Leaf α) (route : Route) (values : List Bytes) : Capture α :=
  ⟨leaf.value, leaf.params ++ route.restName, values⟩

/-- The answer that a path has to get where these routes are bound. -/
def Answers (tried : Route → Prop) (view : Route → Option (Leaf α)) (path : Bytes) :
    Option (Capture α) → Prop
  | none =>
      ∀ route leaf values, view route = some leaf → Place.Fits route.places path values →
        Overtaken tried route path
  | some capture =>
      ∃ route leaf values, view route = some leaf ∧ Place.Fits route.places path values ∧
        capture = leaf.along route values ∧
        (∀ other rival, view other = some rival →
          ¬ Place.Overtakes other.places route.places path) ∧
        ∀ other rival others, view other = some rival → Place.Fits other.places path others →
          ¬ Overtaken tried other path → other = route ∨ Place.Precedes route.places other.places

/-! ## Segments of a path -/

/-- The first segment of a path, with the `/` at its end if there is one, and what comes
after it. -/
def Divides (path segment after : Bytes) : Prop :=
  path = segment ++ after ∧
    (slash ∉ segment ∧ after = [] ∨ ∃ body, slash ∉ body ∧ segment = body ++ [slash])

theorem divides_exists (path : Bytes) : ∃ segment after, Divides path segment after := by
  induction path with
  | nil => exact ⟨[], [], rfl, Or.inl ⟨List.not_mem_nil, rfl⟩⟩
  | cons byte rest inductionHypothesis =>
      by_cases divider : byte = slash
      · exact ⟨[byte], rest, rfl, Or.inr ⟨[], List.not_mem_nil, by rw [divider]; rfl⟩⟩
      · obtain ⟨segment, after, rfl, ⟨inside, ends⟩ | ⟨body, inside, rfl⟩⟩ := inductionHypothesis
        · refine ⟨byte :: segment, after, rfl, Or.inl ⟨?_, ends⟩⟩
          exact List.not_mem_cons_of_ne_of_not_mem (Ne.symm divider) inside
        · refine ⟨byte :: (body ++ [slash]), after, rfl, Or.inr ⟨byte :: body, ?_, rfl⟩⟩
          exact List.not_mem_cons_of_ne_of_not_mem (Ne.symm divider) inside

private theorem first_slash_unique {first second later final : Bytes} (plainFirst : slash ∉ first)
    (plainSecond : slash ∉ second) (same : first ++ slash :: later = second ++ slash :: final) :
    first = second ∧ later = final := by
  induction first generalizing second with
  | nil =>
      cases second with
      | nil => exact ⟨rfl, (List.cons.inj same).2⟩
      | cons byte rest => exact absurd ((List.cons.inj same).1 ▸ List.mem_cons_self) plainSecond
  | cons byte rest inductionHypothesis =>
      cases second with
      | nil => exact absurd ((List.cons.inj same).1 ▸ List.mem_cons_self) plainFirst
      | cons other others =>
          obtain ⟨rfl, further⟩ := List.cons.inj same
          obtain ⟨rfl, rfl⟩ := inductionHypothesis (fun inside => plainFirst (.tail _ inside))
            (fun inside => plainSecond (.tail _ inside)) further
          exact ⟨rfl, rfl⟩

theorem Divides.unique {path segment after other behind : Bytes}
    (first : Divides path segment after) (second : Divides path other behind) :
    segment = other ∧ after = behind := by
  obtain ⟨rfl, ⟨inside, rfl⟩ | ⟨body, inside, rfl⟩⟩ := first
  · obtain ⟨same, ⟨_, rfl⟩ | ⟨body, _, rfl⟩⟩ := second
    · simpa using same
    · rw [List.append_nil] at same
      subst same
      simp at inside
  · obtain ⟨same, ⟨insideOther, rfl⟩ | ⟨bodyOther, insideOther, rfl⟩⟩ := second
    · rw [List.append_nil] at same
      subst same
      simp at insideOther
    · rw [List.append_assoc, List.append_assoc] at same
      obtain ⟨rfl, rfl⟩ := first_slash_unique inside insideOther same
      exact ⟨rfl, rfl⟩

/-- A parameter and its tail take the first segment. -/
theorem divides_of_tail {value text after : Bytes} (plain : slash ∉ value)
    (ends : Place.EndsSegment text) (last : slash ∈ text ∨ after = []) :
    Divides (value ++ text ++ after) (value ++ text) after := by
  obtain ⟨body, inside, rfl | rfl⟩ := ends
  · rcases last with absurdity | rfl
    · exact absurd absurdity inside
    · refine ⟨rfl, Or.inl ⟨?_, rfl⟩⟩
      rw [List.mem_append, not_or]
      exact ⟨plain, inside⟩
  · refine ⟨rfl, Or.inr ⟨value ++ body, ?_, (List.append_assoc _ _ _).symm⟩⟩
    rw [List.mem_append, not_or]
    exact ⟨plain, inside⟩

/-- A parameter and its tail divide a path in one way. -/
theorem tail_unique {value text after other behind : Bytes} (ends : Place.EndsSegment text)
    (plain : slash ∉ value) (plainOther : slash ∉ other) (last : slash ∈ text ∨ after = [])
    (lastOther : slash ∈ text ∨ behind = [])
    (same : value ++ text ++ after = other ++ text ++ behind) : value = other ∧ after = behind := by
  have divides := divides_of_tail plain ends last
  have dividesToo := divides_of_tail plainOther ends lastOther
  rw [← same] at dividesToo
  obtain ⟨sameSegment, sameAfter⟩ := divides.unique dividesToo
  exact ⟨List.append_cancel_right sameSegment, sameAfter⟩

/-- Behind a tail without `/` a path that matches ends. -/
theorem Route.Proper.last {suffix : Bytes} {next : Route} (proper : (paramThen suffix next).Proper)
    {after : Bytes} {values : List Bytes} (fits : Place.Fits next.places after values) :
    slash ∈ suffix ∨ after = [] := by
  refine proper.2.2.1.imp id ?_
  rintro rfl
  exact (Place.fits_nil_iff.mp fits).1

/-! ## Tails of a segment -/

/-- A segment ends with this text behind a parameter. -/
def Closes (text segment : Bytes) : Prop :=
  ∃ value, value ≠ [] ∧ segment = value ++ text

def Tails.Has (suffix : Bytes) (node : Node α) : Tails α → Prop
  | .nil => False
  | .cons own below others => (own = suffix ∧ below = node) ∨ others.Has suffix node

theorem closes_iff {text segment : Bytes} :
    Closes text segment ↔
      text.length < segment.length ∧ segment.drop (segment.length - text.length) = text := by
  constructor
  · rintro ⟨value, filled, rfl⟩
    have positive := List.length_pos_iff.mpr filled
    refine ⟨by rw [List.length_append]; omega, ?_⟩
    rw [List.length_append, Nat.add_sub_cancel, List.drop_left]
  · rintro ⟨shorter, ends⟩
    refine ⟨segment.take (segment.length - text.length), ?_, ?_⟩
    · rw [← List.length_pos_iff, List.length_take]
      omega
    · conv => lhs; rw [← List.take_append_drop (segment.length - text.length) segment]
      rw [ends]

theorem Tails.mem_texts_of_has {suffix : Bytes} {node : Node α} {tails : Tails α}
    (has : tails.Has suffix node) : suffix ∈ tails.texts := by
  cases tails with
  | nil => exact has.elim
  | cons own below others =>
      rcases has with ⟨rfl, _⟩ | behind
      · exact List.mem_cons_self
      · exact List.mem_cons_of_mem _ (Tails.mem_texts_of_has behind)

theorem Tails.bound_of_has {suffix : Bytes} {node : Node α} {tails : Tails α}
    (sorted : tails.texts.Pairwise Tails.Ahead) (has : tails.Has suffix node) (route : Route) :
    tails.bound suffix route = node.bound route := by
  cases tails with
  | nil => exact has.elim
  | cons own below others =>
      obtain ⟨ahead, rest⟩ := List.pairwise_cons.mp sorted
      rcases has with ⟨rfl, rfl⟩ | behind
      · exact if_pos rfl
      · have different := (ahead suffix (Tails.mem_texts_of_has behind)).1
        rw [Tails.bound, if_neg (Ne.symm different)]
        exact Tails.bound_of_has rest behind route

/-- Of the tails that close a segment the longest one is taken. -/
theorem Tails.find_cases {tails : Tails α} (sorted : tails.texts.Pairwise Tails.Ahead)
    (segment after : Bytes) (otherwise : Option (Capture α)) :
    (∀ text ∈ tails.texts, ¬ Closes text segment) ∧
        tails.find segment after otherwise = otherwise ∨
      ∃ suffix node value, tails.Has suffix node ∧ value ≠ [] ∧ segment = value ++ suffix ∧
        tails.find segment after otherwise = (node.find after).map (·.withValue value) ∧
        ∀ text ∈ tails.texts, Closes text segment → text.length ≤ suffix.length := by
  cases tails with
  | nil => exact Or.inl ⟨nofun, rfl⟩
  | cons own node others =>
      obtain ⟨ahead, rest⟩ := List.pairwise_cons.mp sorted
      by_cases closes : Closes own segment
      · refine Or.inr ⟨own, node, segment.take (segment.length - own.length), Or.inl ⟨rfl, rfl⟩,
          ?_, ?_, ?_, ?_⟩
        · have shorter := (closes_iff.mp closes).1
          rw [← List.length_pos_iff, List.length_take]
          omega
        · have ends := (closes_iff.mp closes).2
          conv => lhs; rw [← List.take_append_drop (segment.length - own.length) segment]
          rw [ends]
        · rw [Tails.find]
          exact if_pos (closes_iff.mp closes)
        · intro text member _
          rcases List.mem_cons.mp member with rfl | behind
          · exact Nat.le_refl _
          · exact (ahead text behind).2
      · have skipped : (Tails.cons own node others).find segment after otherwise =
            others.find segment after otherwise := by
          rw [Tails.find]
          exact if_neg fun fits => closes (closes_iff.mpr fits)
        rw [skipped]
        rcases Tails.find_cases rest segment after otherwise with
          ⟨none, same⟩ | ⟨suffix, below, value, has, filled, same, found, longest⟩
        · refine Or.inl ⟨fun text member => ?_, same⟩
          rcases List.mem_cons.mp member with rfl | behind
          · exact closes
          · exact none text behind
        · refine Or.inr ⟨suffix, below, value, Or.inr has, filled, same, found, ?_⟩
          intro text member closing
          rcases List.mem_cons.mp member with rfl | behind
          · exact absurd closing closes
          · exact longest text behind closing

theorem Wild.find_of_closed (leaf : Option (Leaf α)) (tails : Tails α) {path : Bytes}
    (closed : path = [] ∨ path.head? = some slash) : (Wild.param leaf tails).find path = none := by
  cases path with
  | nil => rfl
  | cons byte rest =>
      have divider : byte = slash := by simpa using closed
      simp [Wild.find, divider]

/-- A parameter takes what its tail leaves of the first segment. -/
theorem Wild.find_of_divides (leaf : Option (Leaf α)) (tails : Tails α)
    {path segment after : Bytes} (divides : Divides path segment after)
    (opened : ¬ (path = [] ∨ path.head? = some slash)) :
    (Wild.param leaf tails).find path =
      tails.find segment after
        (if slash ∈ segment then none else leaf.map (·.capture.withValue segment)) := by
  have keep : ∀ {body : Bytes}, slash ∉ body → ∀ byte ∈ body, decide (byte ≠ slash) = true := by
    intro body inside byte member
    exact decide_eq_true fun same => inside (same ▸ member)
  obtain ⟨rfl, ⟨inside, rfl⟩ | ⟨body, inside, rfl⟩⟩ := divides
  · have kept := @List.takeWhile_append_of_pos _ (· ≠ slash) segment [] (keep inside)
    have dropped := @List.dropWhile_append_of_pos _ (· ≠ slash) segment [] (keep inside)
    rw [List.append_nil] at opened kept dropped ⊢
    rw [if_neg inside, Wild.find, kept, dropped, List.takeWhile_nil, List.dropWhile_nil,
      List.append_nil]
    cases segment with
    | nil => exact absurd (Or.inl rfl) opened
    | cons byte rest => rfl
  · have whole : body ++ [slash] ++ after = body ++ slash :: after := by simp
    rw [whole] at opened ⊢
    rw [if_pos (by simp), Wild.find, List.takeWhile_append_of_pos (keep inside),
      List.dropWhile_append_of_pos (keep inside)]
    cases body with
    | nil => exact absurd (Or.inr rfl) opened
    | cons byte rest => simp

/-! ## Searching -/

theorem Overtaken.literal {tried : Route → Prop} (byte : UInt8) {route : Route} {path : Bytes}
    (overtaken : Overtaken (fun later => tried (.literal byte later)) route path) :
    Overtaken tried (.literal byte route) (byte :: path) := by
  obtain ⟨winner, asked, overtakes⟩ := overtaken
  exact ⟨_, asked, Place.Overtakes.literal byte overtakes⟩

theorem Overtaken.paramThen {tried : Route → Prop} {suffix : Bytes} {route : Route}
    {value after : Bytes} (filled : value ≠ []) (plain : slash ∉ value)
    (overtaken : Overtaken (fun later => tried (.paramThen suffix later)) route after) :
    Overtaken tried (.paramThen suffix route) (value ++ suffix ++ after) := by
  obtain ⟨winner, asked, overtakes⟩ := overtaken
  refine ⟨_, asked, ?_⟩
  rw [List.append_assoc]
  exact Place.Overtakes.param value filled plain (overtakes.text suffix)

theorem Route.places_of_wildcard {route : Route} (wildcard : route.isWildcard = true) :
    ∃ rest, route.places = .param :: rest ∨ route.places = .remainder :: rest := by
  cases route with
  | stop => cases wildcard
  | literal byte next => cases wildcard
  | param => exact ⟨_, Or.inl rfl⟩
  | paramThen suffix next => exact ⟨_, Or.inl rfl⟩
  | remainder name => exact ⟨_, Or.inr rfl⟩
  | crowded lead spelled next => exact ⟨_, Or.inl rfl⟩
  | stray => exact ⟨_, Or.inr rfl⟩

theorem Route.precedes_wildcard (byte : UInt8) (next : Route) {route : Route}
    (wildcard : route.isWildcard = true) :
    Place.Precedes (Route.literal byte next).places route.places := by
  obtain ⟨rest, param | remainder⟩ := Route.places_of_wildcard wildcard
  · rw [param]
    exact Place.Precedes.param byte _ _
  · rw [remainder]
    exact Place.Precedes.remainder byte _ _

/-- Nothing behind a literal is in the way of a wildcard. -/
theorem Route.not_overtakes_wildcard {other route : Route} (wildcard : route.isWildcard = true)
    (notWildcard : other.isWildcard = false) (path : Bytes) :
    ¬ Place.Overtakes other.places route.places path := by
  intro overtakes
  obtain ⟨rest, param | remainder⟩ := Route.places_of_wildcard wildcard
  · rw [param] at overtakes
    cases other with
    | stop => exact nomatch overtakes
    | literal byte next => exact nomatch overtakes
    | _ => exact nomatch notWildcard
  · rw [remainder] at overtakes
    exact Place.not_overtakes_remainder overtakes

/-- Below a node literals come first, and the wildcard is gone back to when they fail. -/
theorem Node.answers_cons {tried : Route → Prop} {leaf : Option (Leaf α)}
    {branches : Branches α} {wild : Wild α} {byte : UInt8} {path : Bytes}
    {first second : Option (Capture α)}
    (onBranches : Answers (fun later => tried (.literal byte later)) (branches.bound byte) path
      first)
    (onWild : Answers tried wild.bound (byte :: path) second) :
    Answers tried (Node.mk leaf branches wild).bound (byte :: path) (first.or second) := by
  -- A bound route that matches begins with the byte, or with a wildcard.
  have begins : ∀ {route : Route} {values : List Bytes},
      Place.Fits route.places (byte :: path) values →
        (∃ next, route = .literal byte next ∧ Place.Fits next.places path values) ∨
          route.isWildcard = true := by
    intro route values fits
    cases route with
    | stop => cases fits
    | literal asked next =>
        obtain ⟨_, same, further⟩ := Place.fits_literal_iff.mp fits
        cases same
        exact Or.inl ⟨next, rfl, further⟩
    | _ => exact Or.inr rfl
  cases first with
  | some capture =>
      obtain ⟨route, own, values, bound, fits, rfl, unbeaten, best⟩ := onBranches
      refine ⟨.literal byte route, own, values, bound, Place.Fits.literal byte fits, rfl, ?_, ?_⟩
      · intro other rival boundOther overtakes
        obtain ⟨later, after, places, same, further⟩ := Place.overtakes_literal_iff.mp overtakes
        cases same
        cases other with
        | literal asked next =>
            obtain ⟨rfl, rfl⟩ := by simpa [Route.places] using places
            exact unbeaten next rival boundOther further
        | stop => cases places
        | _ => cases places
      · intro other rival others boundOther fitsOther survives
        rcases begins fitsOther with ⟨next, rfl, further⟩ | wildcard
        · refine (best next rival others boundOther further fun overtaken => ?_).imp ?_ ?_
          · exact survives overtaken.literal
          · exact congrArg _
          · exact Place.Precedes.cons (.literal byte)
        · exact Or.inr (Route.precedes_wildcard byte route wildcard)
  | none =>
      cases second with
      | none =>
          intro route own values bound fits
          rcases begins fits with ⟨next, rfl, further⟩ | wildcard
          · exact (onBranches next own values bound further).literal
          · rw [Node.bound_wildcard leaf branches wild wildcard] at bound
            exact onWild route own values bound fits
      | some capture =>
          obtain ⟨route, own, values, bound, fits, rfl, unbeaten, best⟩ := onWild
          have isWild : route.isWildcard = true := by
            rcases begins fits with ⟨next, rfl, _⟩ | wildcard
            · rw [Wild.bound_of_not_wildcard rfl] at bound
              cases bound
            · exact wildcard
          refine ⟨route, own, values, ?_, fits, rfl, ?_, ?_⟩
          · rw [Node.bound_wildcard leaf branches wild isWild]
            exact bound
          · intro other rival boundOther overtakes
            by_cases wildcard : other.isWildcard = true
            · rw [Node.bound_wildcard leaf branches wild wildcard] at boundOther
              exact unbeaten other rival boundOther overtakes
            · rw [Bool.not_eq_true] at wildcard
              exact Route.not_overtakes_wildcard isWild wildcard _ overtakes
          · intro other rival others boundOther fitsOther survives
            rcases begins fitsOther with ⟨next, rfl, further⟩ | wildcard
            · exact absurd (onBranches next rival others boundOther further).literal survives
            · rw [Node.bound_wildcard leaf branches wild wildcard] at boundOther
              exact best other rival others boundOther fitsOther survives

/-! ## Searching behind a parameter -/

/-- The tail of a route that was tried takes the path away from a route with a shorter one. -/
theorem overtaken_of_shorter {tried : Route → Prop} {suffix : Bytes} {next route : Route}
    {value after : Bytes} {rest : List Place} (asked : tried (.paramThen suffix next))
    (proper : (Route.paramThen suffix next).Proper) (filled : value ≠ []) (plain : slash ∉ value)
    (last : slash ∈ suffix ∨ after = []) (places : route.places = .param :: rest)
    (shorter : (Place.tail rest).length < suffix.length) :
    Overtaken tried route (value ++ suffix ++ after) := by
  have whole := Route.tail_places proper
  refine ⟨_, asked, ?_⟩
  rw [places, Route.places]
  have overtakes := @Place.Overtakes.longer value after _ rest filled plain
    (whole.symm ▸ last) (whole.symm ▸ shorter)
  rwa [whole] at overtakes

/-- The routes of a wildcard child that match a path. -/
theorem Wild.fits_param_cases {own : Option (Leaf α)} {tails : Tails α} {route : Route}
    {leaf : Leaf α} {path : Bytes} {values : List Bytes}
    (bound : (Wild.param own tails).bound route = some leaf)
    (proper : route.Proper) (fits : Place.Fits route.places path values) :
    (route = .param ∧ own = some leaf ∧ path ≠ [] ∧ slash ∉ path ∧ values = [path]) ∨
      ∃ suffix next value after others, route = .paramThen suffix next ∧
        tails.bound suffix next = some leaf ∧ value ≠ [] ∧ slash ∉ value ∧
        path = value ++ suffix ++ after ∧ values = value :: others ∧
        Divides path (value ++ suffix) after ∧ Place.Fits next.places after others := by
  cases route with
  | param => exact Or.inl ⟨rfl, bound, Route.fits_param_iff.mp fits⟩
  | paramThen suffix next =>
      obtain ⟨value, after, others, nonempty, plain, rfl, rfl, further⟩ :=
        Route.fits_paramThen_iff.mp fits
      obtain ⟨_, ends, last, _⟩ := proper
      have finished : slash ∈ suffix ∨ after = [] := by
        refine last.imp id ?_
        rintro rfl
        exact (Place.fits_nil_iff.mp further).1
      exact Or.inr ⟨suffix, next, value, after, others, rfl, bound, nonempty, plain, rfl, rfl,
        divides_of_tail plain ends finished, further⟩
  | _ => exact nomatch bound

theorem opened_of_value {value rest : Bytes} (nonempty : value ≠ []) (plain : slash ∉ value) :
    ¬ (value ++ rest = [] ∨ (value ++ rest).head? = some slash) := by
  cases value with
  | nil => exact absurd rfl nonempty
  | cons byte others =>
      rintro (bare | first)
      · exact nomatch bare
      · exact plain (by rw [← Option.some.inj first]; exact List.mem_cons_self)

/-- What a tail leaves of a segment has no `/`. -/
theorem Divides.plain {path value suffix after : Bytes}
    (divides : Divides path (value ++ suffix) after) (nonempty : suffix ≠ []) :
    slash ∉ value ∧ (slash ∈ suffix ∨ after = []) := by
  obtain ⟨_, ⟨inside, rfl⟩ | ⟨body, inside, same⟩⟩ := divides
  · rw [List.mem_append, not_or] at inside
    exact ⟨inside.1, Or.inr rfl⟩
  · obtain bare | ⟨front, last, rfl⟩ := List.eq_nil_or_concat suffix
    · exact absurd bare nonempty
    · rw [List.concat_eq_append, ← List.append_assoc] at same
      obtain ⟨rfl, ends⟩ := List.append_inj' same rfl
      rw [List.mem_append, not_or] at inside
      refine ⟨inside.1, Or.inl ?_⟩
      rw [List.concat_eq_append, ends]
      exact List.mem_append_right front List.mem_cons_self

theorem Tails.mem_texts_of_bound {tails : Tails α} {suffix : Bytes} {route : Route}
    {leaf : Leaf α} (bound : tails.bound suffix route = some leaf) : suffix ∈ tails.texts := by
  by_cases member : suffix ∈ tails.texts
  · exact member
  · rw [Tails.bound_of_not_mem member] at bound
    cases bound

section Param

variable {tried : Route → Prop} {own : Option (Leaf α)} {tails : Tails α}
  {path segment after : Bytes}

/-- If no tail closes the segment, the parameter has to take all of the path. -/
theorem Wild.answers_without_tail
    (proper : ∀ route leaf, (Wild.param own tails).bound route = some leaf → route.Proper)
    (divides : Divides path segment after)
    (opened : ¬ (path = [] ∨ path.head? = some slash))
    (unclosed : ∀ text ∈ tails.texts, ¬ Closes text segment) :
    Answers tried (Wild.param own tails).bound path
      (if slash ∈ segment then none else own.map (·.capture.withValue segment)) := by
  have noTail : ∀ {suffix next leaf value rest}, tails.bound suffix next = some leaf →
      value ≠ [] → ¬ Divides path (value ++ suffix) rest := by
    intro suffix next leaf value rest bound nonempty other
    have closes : Closes suffix segment := ⟨value, nonempty, (divides.unique other).1⟩
    exact unclosed suffix (Tails.mem_texts_of_bound bound) closes
  by_cases inside : slash ∈ segment
  · rw [if_pos inside]
    intro route leaf values bound fits
    rcases Wild.fits_param_cases bound (proper _ _ bound) fits with
      ⟨_, _, _, plain, _⟩ | ⟨_, _, _, _, _, _, boundTail, nonempty, _, _, _, other, _⟩
    · refine absurd ?_ plain
      rw [divides.1]
      exact List.mem_append_left after inside
    · exact absurd other (noTail boundTail nonempty)
  · rw [if_neg inside]
    have whole : path = segment := by
      obtain ⟨rfl, ⟨_, rfl⟩ | ⟨body, _, rfl⟩⟩ := divides
      · exact List.append_nil segment
      · exact absurd (by simp) inside
    subst whole
    cases own with
    | none =>
        intro route leaf values bound fits
        rcases Wild.fits_param_cases bound (proper _ _ bound) fits with
          ⟨_, impossible, _⟩ | ⟨_, _, _, _, _, _, boundTail, nonempty, _, _, _, other, _⟩
        · cases impossible
        · exact absurd other (noTail boundTail nonempty)
    | some leaf =>
        refine ⟨.param, leaf, [path], rfl, ?_, ?_, ?_, ?_⟩
        · exact Route.fits_param_iff.mpr ⟨fun bare => opened (Or.inl bare), inside, rfl⟩
        · simp [Leaf.along, Leaf.capture, Capture.withValue, Route.restName]
        · intro other rival bound overtakes
          have properOther := proper _ _ bound
          cases other with
          | param => exact Route.not_param_overtakes overtakes
          | paramThen suffix next =>
              obtain ⟨value, rest, nonempty, plain, same, last⟩ :=
                Route.overtakes_param properOther overtakes
              have divides := divides_of_tail plain properOther.2.1 last
              rw [← same] at divides
              exact noTail bound nonempty divides
          | _ => cases bound
        · intro other rival others bound fits _
          rcases Wild.fits_param_cases bound (proper _ _ bound) fits with
            ⟨rfl, _⟩ | ⟨_, _, _, _, _, _, boundTail, nonempty, _, _, _, divided, _⟩
          · exact Or.inl rfl
          · exact absurd divided (noTail boundTail nonempty)

section Longest

variable {suffix value : Bytes}

/-- A route that matches goes through the longest tail as well, or has a shorter one. -/
theorem Wild.fits_longest_tail {start : Route}
    (proper : ∀ route leaf, (Wild.param own tails).bound route = some leaf → route.Proper)
    (asked : tried (.paramThen suffix start)) (properStart : (Route.paramThen suffix start).Proper)
    (divides : Divides path (value ++ suffix) after) (nonempty : value ≠ [])
    (longest : ∀ text ∈ tails.texts, Closes text (value ++ suffix) → text.length ≤ suffix.length)
    {route : Route} {leaf : Leaf α} {values : List Bytes}
    (bound : (Wild.param own tails).bound route = some leaf)
    (fits : Place.Fits route.places path values) :
    (∃ next others, route = .paramThen suffix next ∧ tails.bound suffix next = some leaf ∧
        values = value :: others ∧ Place.Fits next.places after others) ∨
      Overtaken tried route path := by
  obtain ⟨plain, last⟩ := divides.plain properStart.1
  have whole := divides.1
  subst whole
  rcases Wild.fits_param_cases bound (proper _ _ bound) fits with
    ⟨rfl, _⟩ | ⟨text, next, taken, rest, others, rfl, boundTail, filled, _, _, rfl, other, further⟩
  · exact Or.inr (overtaken_of_shorter asked properStart nonempty plain last rfl
      (List.length_pos_iff.mpr properStart.1))
  · obtain ⟨same, rfl⟩ := divides.unique other
    have shorter := longest text (Tails.mem_texts_of_bound boundTail) ⟨taken, filled, same⟩
    rcases Nat.lt_or_eq_of_le shorter with less | equal
    · refine Or.inr (overtaken_of_shorter asked properStart nonempty plain last rfl ?_)
      rwa [Route.tail_places (proper _ _ bound)]
    · obtain ⟨rfl, rfl⟩ := List.append_inj' same equal.symm
      exact Or.inl ⟨next, others, rfl, boundTail, rfl, further⟩

/-- What overtakes a route through the longest tail does so behind this tail. -/
theorem Wild.overtakes_longest_tail
    (proper : ∀ route leaf, (Wild.param own tails).bound route = some leaf → route.Proper)
    (divides : Divides path (value ++ suffix) after)
    (longest : ∀ text ∈ tails.texts, Closes text (value ++ suffix) → text.length ≤ suffix.length)
    {route other : Route} {rival : Leaf α} (properRoute : (Route.paramThen suffix route).Proper)
    (bound : (Wild.param own tails).bound other = some rival)
    (overtakes : Place.Overtakes other.places (Route.paramThen suffix route).places path) :
    ∃ next, other = .paramThen suffix next ∧ tails.bound suffix next = some rival ∧
      Place.Overtakes next.places route.places after := by
  have properOther := proper _ _ bound
  cases other with
  | param => exact absurd overtakes Route.not_param_overtakes
  | paramThen text next =>
      rcases Route.overtakes_paramThen properOther properRoute overtakes with
        ⟨taken, rest, filled, plainTaken, same, finished, longer⟩ |
          ⟨rfl, taken, rest, filled, plainTaken, same, further⟩
      · have other := divides_of_tail plainTaken properOther.2.1 finished
        rw [← same] at other
        have shorter := longest text (Tails.mem_texts_of_bound bound)
          ⟨taken, filled, (divides.unique other).1⟩
        omega
      · have finished : slash ∈ text ∨ rest = [] := by
          refine properOther.2.2.1.imp id ?_
          rintro rfl
          cases further
        have other := divides_of_tail plainTaken properOther.2.1 finished
        rw [← same] at other
        obtain ⟨_, rfl⟩ := divides.unique other
        exact ⟨next, rfl, bound, further⟩
  | _ => cases bound

/-- The longest tail that closes the segment is taken. -/
theorem Wild.answers_with_tail {node : Node α}
    (proper : ∀ route, tried route → route.Proper) (stems : (Wild.param own tails).Stems tried)
    (divides : Divides path (value ++ suffix) after) (nonempty : value ≠ [])
    (has : tails.Has suffix node)
    (longest : ∀ text ∈ tails.texts, Closes text (value ++ suffix) → text.length ≤ suffix.length)
    (behind : Answers (fun later => tried (.paramThen suffix later)) node.bound after
      (node.find after)) :
    Answers tried (Wild.param own tails).bound path
      ((node.find after).map (·.withValue value)) := by
  have properBound : ∀ route leaf, (Wild.param own tails).bound route = some leaf →
      route.Proper := fun _ _ bound => proper _ (Wild.tried_of_bound stems bound)
  obtain ⟨_, _, sorted, below⟩ := stems
  obtain ⟨start, asked⟩ := Tails.tried_of_mem below (Tails.mem_texts_of_has has)
  have properStart := proper _ asked
  obtain ⟨plain, _⟩ := divides.plain properStart.1
  have boundHere := Tails.bound_of_has sorted has
  have through : ∀ {route leaf values}, (Wild.param own tails).bound route = some leaf →
      Place.Fits route.places path values →
        (∃ next others, route = .paramThen suffix next ∧ tails.bound suffix next = some leaf ∧
            values = value :: others ∧ Place.Fits next.places after others) ∨
          Overtaken tried route path :=
    fun bound => Wild.fits_longest_tail properBound asked properStart divides nonempty longest bound
  have whole := divides.1
  cases found : node.find after with
  | none =>
      rw [found] at behind
      intro route leaf values bound fits
      rcases through bound fits with ⟨next, others, rfl, boundNext, _, further⟩ | overtaken
      · rw [whole]
        exact (behind next leaf others ((boundHere next).symm.trans boundNext) further).paramThen
          nonempty plain
      · exact overtaken
  | some capture =>
      rw [found] at behind
      obtain ⟨route, leaf, values, bound, fits, rfl, unbeaten, best⟩ := behind
      have boundRoute : (Wild.param own tails).bound (.paramThen suffix route) = some leaf :=
        (boundHere route).trans bound
      refine ⟨.paramThen suffix route, leaf, value :: values, boundRoute, ?_, rfl, ?_, ?_⟩
      · exact Route.fits_paramThen_iff.mpr
          ⟨value, after, values, nonempty, plain, whole, rfl, fits⟩
      · intro other rival boundOther overtakes
        obtain ⟨next, rfl, boundNext, further⟩ := Wild.overtakes_longest_tail properBound divides
          longest (properBound _ _ boundRoute) boundOther overtakes
        exact unbeaten next rival ((boundHere next).symm.trans boundNext) further
      · intro other rival others boundOther fitsOther survives
        rcases through boundOther fitsOther with
          ⟨next, left, rfl, boundNext, _, further⟩ | overtaken
        · refine (best next rival left ((boundHere next).symm.trans boundNext) further
            fun overtaken => ?_).imp ?_ ?_
          · rw [whole] at survives
            exact survives (overtaken.paramThen nonempty plain)
          · exact congrArg _
          · exact fun before => Place.Precedes.cons .param (before.append _)
        · exact absurd overtaken survives

end Longest

end Param

theorem Wild.answers_param {tried : Route → Prop} {own : Option (Leaf α)} {tails : Tails α}
    (proper : ∀ route, tried route → route.Proper) (stems : (Wild.param own tails).Stems tried)
    (behind : ∀ suffix node path, tails.Has suffix node →
      Answers (fun later => tried (.paramThen suffix later)) node.bound path (node.find path))
    (path : Bytes) :
    Answers tried (Wild.param own tails).bound path ((Wild.param own tails).find path) := by
  have properBound : ∀ route leaf, (Wild.param own tails).bound route = some leaf →
      route.Proper := fun route leaf bound => proper _ (Wild.tried_of_bound stems bound)
  by_cases closed : path = [] ∨ path.head? = some slash
  · rw [Wild.find_of_closed own tails closed]
    intro route leaf values bound fits
    rcases Wild.fits_param_cases bound (properBound _ _ bound) fits with
      ⟨_, _, nonempty, plain, _⟩ | ⟨_, _, value, _, _, _, _, nonempty, plain, rfl, _⟩
    · exact absurd closed (by simpa using @opened_of_value _ [] nonempty plain)
    · rw [List.append_assoc] at closed
      exact absurd closed (opened_of_value nonempty plain)
  · obtain ⟨segment, after, divides⟩ := divides_exists path
    rw [Wild.find_of_divides own tails divides closed]
    rcases Tails.find_cases stems.2.2.1 segment after
        (if slash ∈ segment then none else own.map (·.capture.withValue segment)) with
      ⟨none, same⟩ | ⟨suffix, node, value, has, nonempty, rfl, found, longest⟩
    · rw [same]
      exact Wild.answers_without_tail properBound divides closed none
    · rw [found]
      exact Wild.answers_with_tail proper stems divides nonempty has longest
        (behind suffix node after has)

/-! ## Searching a tree -/

theorem Route.eq_stop_of_fits_nil {route : Route} {values : List Bytes}
    (fits : Place.Fits route.places [] values) : route = .stop := by
  have taken : ∀ {rest : List Place}, ¬ Place.Fits (.param :: rest) [] values := by
    intro rest matched
    obtain ⟨value, after, _, nonempty, _, same, _⟩ := Place.fits_param_iff.mp matched
    exact nonempty (List.append_eq_nil_iff.mp same.symm).1
  cases route with
  | stop => rfl
  | literal byte next => exact nomatch fits
  | param => exact absurd fits taken
  | paramThen suffix next => exact absurd fits taken
  | crowded lead spelled next => exact absurd fits taken
  | remainder name => exact absurd rfl (Place.fits_remainder_iff.mp fits).2.1
  | stray => exact absurd rfl (Place.fits_remainder_iff.mp fits).2.1

theorem Node.answers_nil {tried : Route → Prop} (leaf : Option (Leaf α)) (branches : Branches α)
    (wild : Wild α) :
    Answers tried (Node.mk leaf branches wild).bound []
      ((Node.mk leaf branches wild).find []) := by
  cases leaf with
  | none =>
      intro route own values bound fits
      cases Route.eq_stop_of_fits_nil fits
      exact nomatch bound
  | some own =>
      refine ⟨.stop, own, [], rfl, Place.Fits.done, ?_, fun _ _ _ => Place.not_overtakes_nil, ?_⟩
      · simp [Leaf.along, Leaf.capture, Route.restName]
      · exact fun other _ _ _ fits _ => Or.inl (Route.eq_stop_of_fits_nil fits)

theorem Node.find_cons (leaf : Option (Leaf α)) (branches : Branches α) (wild : Wild α)
    (byte : UInt8) (path : Bytes) :
    (Node.mk leaf branches wild).find (byte :: path) =
      (branches.find byte path).or (wild.find (byte :: path)) := by
  rw [Node.find]
  cases branches.find byte path <;> rfl

mutual
theorem Node.answers {tried : Route → Prop} {node : Node α}
    (proper : ∀ route, tried route → route.Proper) (stems : node.Stems tried) (path : Bytes) :
    Answers tried node.bound path (node.find path) := by
  cases node with
  | mk leaf branches wild =>
      obtain ⟨_, below, beside⟩ := stems
      cases path with
      | nil => exact Node.answers_nil leaf branches wild
      | cons byte rest =>
          rw [Node.find_cons]
          exact Node.answers_cons (Branches.answers proper below byte rest)
            (Wild.answers proper beside (List.cons_ne_nil byte rest))

theorem Branches.answers {tried : Route → Prop} {branches : Branches α}
    (proper : ∀ route, tried route → route.Proper) (stems : branches.Stems tried) (byte : UInt8)
    (path : Bytes) :
    Answers (fun later => tried (.literal byte later)) (branches.bound byte) path
      (branches.find byte path) := by
  cases branches with
  | nil => exact nofun
  | cons own visits laid node others =>
      obtain ⟨_, below, _, rest⟩ := stems
      rw [Branches.find]
      by_cases same : own = byte
      · subst same
        have answers :=
          Node.answers (fun later asked => proper (.literal own later) asked) below path
        simpa [Branches.bound] using answers
      · rw [if_neg same]
        simpa [Branches.bound, same] using Branches.answers proper rest byte path

theorem Wild.answers {tried : Route → Prop} {wild : Wild α}
    (proper : ∀ route, tried route → route.Proper) (stems : wild.Stems tried) {path : Bytes}
    (nonempty : path ≠ []) : Answers tried wild.bound path (wild.find path) := by
  cases wild with
  | absent => exact nofun
  | remainder name leaf =>
      refine ⟨.remainder name, leaf, [path], if_pos rfl, Place.Fits.remainder path nonempty, rfl,
        fun _ _ _ => Place.not_overtakes_remainder, ?_⟩
      intro other rival others bound _ _
      cases other with
      | remainder asked =>
          by_cases same : name = asked
          · exact Or.inl (congrArg _ same.symm)
          · rw [Wild.bound, if_neg same] at bound
            exact nomatch bound
      | _ => exact nomatch bound
  | param own tails =>
      exact Wild.answers_param proper stems
        (fun suffix node => Tails.answers proper stems.2.2.2) path

theorem Tails.answers {tried : Route → Prop} {tails : Tails α}
    (proper : ∀ route, tried route → route.Proper) (stems : tails.Stems tried) {suffix : Bytes}
    {node : Node α} (path : Bytes) (has : tails.Has suffix node) :
    Answers (fun later => tried (.paramThen suffix later)) node.bound path (node.find path) := by
  cases tails with
  | nil => exact has.elim
  | cons own below others =>
      obtain ⟨_, stemsBelow, rest⟩ := stems
      rcases has with ⟨rfl, rfl⟩ | behind
      · exact Node.answers (fun later asked => (proper (.paramThen own later) asked).2.2.2)
          stemsBelow path
      · exact Tails.answers proper rest path behind
end

end FunctionGateway.Routing
