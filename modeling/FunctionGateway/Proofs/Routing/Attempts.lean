import FunctionGateway.Proofs.Routing.Insertion
import FunctionGateway.Proofs.Routing.Reading
import FunctionGateway.Routing.Router

/-!
# What a router was asked to bind

Every call that binds a specification leaves a record: the patterns it tried in their trees, in
order, each with the word whether the tree took it.  The trees of a router hold exactly the
patterns of the record that were taken, and no more than the record accounts for.
-/

namespace FunctionGateway.Routing

open FunctionGateway.Text

variable {α : Type}

deriving instance DecidableEq for Endpoint

/-- A pattern in a tree, with what it is bound to. -/
structure Binding (α : Type) where
  scope : Scope
  source : String
  endpoint : Endpoint α
deriving DecidableEq

/-- A binding that was tried, and whether the tree took it. -/
structure Attempt (α : Type) extends Binding α where
  accepted : Bool
deriving DecidableEq

namespace Router

/-- Patterns are tried one after the other, up to the first that is refused. -/
def attemptsEach (endpoint : Endpoint α) : Router α → List (String × Scope) → List (Attempt α)
  | _, [] => []
  | router, (pattern, scope) :: rest =>
      match router.bindPattern endpoint pattern scope with
      | (changed, none) =>
          ⟨⟨scope, pattern, endpoint⟩, true⟩ :: attemptsEach endpoint changed rest
      | (_, some _) => [⟨⟨scope, pattern, endpoint⟩, false⟩]

/-- A specification with a pattern that is taken is not tried at all. -/
def attempts (router : Router α) (spec : RouteSpec) (handler : α) : List (Attempt α) :=
  match router.conflict? spec with
  | some _ => []
  | none => attemptsEach ⟨handler, spec.constraints⟩ router spec.bindings

/-- Bind one specification after the other, whether that succeeds or not. -/
def routeAll : Router α → List (RouteSpec × α) → Router α
  | router, [] => router
  | router, (spec, handler) :: rest => routeAll (router.route spec handler).1 rest

/-- The record of binding one specification after the other. -/
def record : Router α → List (RouteSpec × α) → List (Attempt α)
  | _, [] => []
  | router, (spec, handler) :: rest =>
      router.attempts spec handler ++ record (router.route spec handler).1 rest

end Router

/-- A binding that is on record as taken. -/
def Bound (log : List (Attempt α)) (binding : Binding α) : Prop :=
  ∃ attempt ∈ log, attempt.accepted = true ∧ attempt.toBinding = binding

/-- The routes that were tried in a tree. -/
def Tried (log : List (Attempt α)) (scope : Scope) (route : Route) : Prop :=
  ∃ attempt ∈ log, attempt.scope = scope ∧
    ∃ pattern, Pattern.read? attempt.source = .ok pattern ∧ pattern.route = route

/-- A pattern that has two wildcards in a segment and that the tree takes for the text of a
tail of another pattern. -/
def Binding.Cuts (later earlier : Binding α) : Prop :=
  later.scope = earlier.scope ∧
    ∃ pattern other, Pattern.read? later.source = .ok pattern ∧
      Pattern.read? earlier.source = .ok other ∧ pattern.route.cuts other.route = true

/-- A text that begins with `/`. -/
def Rooted (source : String) : Prop :=
  ∃ rest, source = "/" ++ rest

/-- The leaf that a binding puts at the end of a route. -/
def Binding.Ends (binding : Binding α) (scope : Scope) (route : Route)
    (leaf : Leaf (Endpoint α)) : Prop :=
  binding.scope = scope ∧
    ∃ pattern, Pattern.read? binding.source = .ok pattern ∧ pattern.route = route ∧
      leaf = ⟨pattern.params, binding.endpoint⟩

/-- The trees hold what is on record. -/
structure Tracks (trees : Scope → PathTree (Endpoint α)) (log : List (Attempt α)) : Prop where
  rooted : ∀ attempt ∈ log, Rooted attempt.source
  stems : ∀ scope, (trees scope).root.Stems (Tried log scope)
  bound : ∀ scope route leaf,
    (trees scope).root.bound route = some leaf ↔
      ∃ binding, Bound log binding ∧ binding.Ends scope route leaf
  regular : ∀ binding, Bound log binding →
    ∃ pattern, Pattern.read? binding.source = .ok pattern ∧ pattern.route.plain = true
  once : ∀ {first second : Binding α} {scope : Scope} {route : Route}
      {leaf other : Leaf (Endpoint α)}, Bound log first → Bound log second →
    first.Ends scope route leaf → second.Ends scope route other → first = second
  /-- No text is taken a second time by one tree. -/
  fresh : (log.filter Attempt.accepted).Pairwise fun earlier later =>
    ¬ (earlier.scope = later.scope ∧ earlier.source = later.source)

/-- A text that is not read as a pattern with a crowded segment or a misplaced remainder. -/
def Pattern.regularSource (source : String) : Bool :=
  match Pattern.read? source with
  | .ok pattern => pattern.route.plain
  | .error _ => true

/-- A later pattern of a record does not cut an earlier one. -/
def Uncut (log : List (Attempt α)) : Prop :=
  log.Pairwise fun earlier later => ¬ later.Cuts earlier.toBinding

theorem uncut_of_regular {log : List (Attempt α)}
    (regular : ∀ attempt ∈ log, Pattern.regularSource attempt.source = true) : Uncut log := by
  refine List.pairwise_of_forall_mem_list fun earlier _ later member cuts => ?_
  obtain ⟨_, pattern, other, read, _, cutting⟩ := cuts
  have plain := regular later member
  rw [Pattern.regularSource, read] at plain
  rw [Route.cuts_of_plain plain] at cutting
  exact nomatch cutting

/-! ## Rooted patterns -/

theorem encodeUtf8_rooted (rest : String) :
    encodeUtf8 ("/" ++ rest) = slash :: encodeUtf8 rest := by
  rw [encodeUtf8, String.toList_append, List.flatMap_append]
  rfl

theorem Glyph.read_slash (bytes : Bytes) :
    Glyph.read (slash :: bytes) = ⟨slash, false⟩ :: Glyph.read bytes := by
  cases bytes with
  | nil => rfl
  | cons second rest =>
      have single : ¬ (slash = second ∧ (slash = braceOpen ∨ slash = braceClose)) := by
        rintro ⟨_, isOpen | isClose⟩
        · exact absurd isOpen (by decide)
        · exact absurd isClose (by decide)
      rw [Glyph.read, if_neg single]

/-- The route of a pattern that begins with `/` begins with that byte. -/
theorem Rooted.route {source : String} (rooted : Rooted source) {pattern : Pattern}
    (read : Pattern.read? source = .ok pattern) :
    ∃ next, pattern.route = .literal slash next := by
  obtain ⟨rest, rfl⟩ := rooted
  obtain ⟨pieces, readPieces, rfl⟩ := Pattern.read?_eq_ok read
  rw [Piece.read?, encodeUtf8_rooted, Glyph.read_slash] at readPieces
  obtain ⟨others, _, rfl⟩ := Piece.map_ok readPieces
  exact ⟨Route.ofPiecesFrom 0 none others, rfl⟩

theorem rooted_iff {source : String} :
    Rooted source ↔ ∃ letters, source.toList = '/' :: letters := by
  constructor
  · rintro ⟨rest, rfl⟩
    exact ⟨rest.toList, by rw [String.toList_append]; rfl⟩
  · rintro ⟨letters, same⟩
    refine ⟨String.ofList letters, String.toList_inj.mp ?_⟩
    rw [same, String.toList_append]
    exact congrArg ('/' :: ·) String.toList_ofList.symm

theorem Rooted.append {source : String} (rooted : Rooted source) (more : String) :
    Rooted (source ++ more) := by
  obtain ⟨rest, rfl⟩ := rooted
  exact ⟨rest ++ more, String.append_assoc⟩

theorem RouteSpec.rooted_headOf {template : String} (rooted : Rooted template) :
    Rooted (RouteSpec.headOf template) := by
  obtain ⟨letters, same⟩ := rooted_iff.mp rooted
  rw [RouteSpec.headOf]
  split
  · exact ⟨"", rfl⟩
  · rename_i head nonempty
    have front : (template.toList.reverse.dropWhile (· ≠ '/')).reverse <+: template.toList := by
      rw [← List.reverse_suffix, List.reverse_reverse]
      exact List.dropWhile_suffix _
    rw [rooted_iff, String.toList_ofList]
    cases first : (template.toList.reverse.dropWhile (· ≠ '/')).reverse with
    | nil => exact absurd first nonempty
    | cons letter more =>
        rw [first, same] at front
        obtain ⟨behind, whole⟩ := front
        cases whole
        exact ⟨more, rfl⟩

theorem RouteSpec.rooted_patterns {spec : RouteSpec} (rooted : Rooted spec.template) :
    ∀ pattern ∈ spec.patterns, Rooted pattern := by
  intro pattern member
  rw [RouteSpec.patterns] at member
  cases shape : spec.shape with
  | exact =>
      rw [shape] at member
      rwa [List.mem_singleton.mp member]
  | suffixed =>
      rw [shape] at member
      simp only [List.mem_cons, List.not_mem_nil, or_false] at member
      rcases member with rfl | rfl | rfl
      · exact rooted
      · exact rooted.append _
      · exact rooted.append _
  | optionalTail =>
      rw [shape] at member
      simp only [List.mem_cons, List.not_mem_nil, or_false] at member
      rcases member with rfl | rfl
      · exact RouteSpec.rooted_headOf rooted
      · exact rooted

/-! ## One more attempt -/

theorem bound_append {log : List (Attempt α)} {attempt : Attempt α} {binding : Binding α} :
    Bound (log ++ [attempt]) binding ↔
      Bound log binding ∨ attempt.accepted = true ∧ attempt.toBinding = binding := by
  simp only [Bound, List.mem_append, List.mem_singleton, or_and_right, exists_or,
    exists_eq_left]

theorem tried_append {log : List (Attempt α)} {attempt : Attempt α} {scope : Scope}
    {route : Route} :
    Tried (log ++ [attempt]) scope route ↔
      Tried log scope route ∨ attempt.scope = scope ∧
        ∃ pattern, Pattern.read? attempt.source = .ok pattern ∧ pattern.route = route := by
  simp only [Tried, List.mem_append, List.mem_singleton, or_and_right, exists_or,
    exists_eq_left]

theorem Tracks.empty : Tracks (fun _ => PathTree.empty) ([] : List (Attempt α)) where
  rooted := nofun
  stems := fun _ => Node.stems_empty _
  bound := by
    intro scope route leaf
    constructor
    · intro bound
      rw [show PathTree.empty.root = (Node.empty : Node (Endpoint α)) from rfl,
        Node.bound_empty] at bound
      exact nomatch bound
    · rintro ⟨_, ⟨_, member, _⟩, _⟩
      exact absurd member List.not_mem_nil
  regular := by
    rintro _ ⟨_, member, _⟩
    exact absurd member List.not_mem_nil
  once := by
    rintro _ _ _ _ _ _ ⟨_, member, _⟩
    exact absurd member List.not_mem_nil
  fresh := List.Pairwise.nil

theorem Tracks.unended {trees : Scope → PathTree (Endpoint α)} {log : List (Attempt α)}
    (tracks : Tracks trees log) (scope : Scope) : ¬ Tried log scope .stop := by
  rintro ⟨attempt, member, _, pattern, read, ended⟩
  obtain ⟨next, begins⟩ := (tracks.rooted attempt member).route read
  exact nomatch begins.symm.trans ended

section Attempts

variable {trees after : Scope → PathTree (Endpoint α)} {log : List (Attempt α)}
  {binding : Binding α}

theorem rooted_append (tracks : Tracks trees log) (rooted : Rooted binding.source)
    (accepted : Bool) : ∀ attempt ∈ log ++ [⟨binding, accepted⟩], Rooted attempt.source := by
  intro attempt member
  rcases List.mem_append.mp member with before | last
  · exact tracks.rooted attempt before
  · rw [List.mem_singleton.mp last]
    exact rooted

/-- An attempt that fails leaves everything bound as it was. -/
theorem Tracks.refused (tracks : Tracks trees log) (rooted : Rooted binding.source)
    (stems : ∀ scope, (after scope).root.Stems (Tried (log ++ [⟨binding, false⟩]) scope))
    (same : ∀ scope route, (after scope).root.bound route = (trees scope).root.bound route) :
    Tracks after (log ++ [⟨binding, false⟩]) := by
  have boundSame : ∀ other, Bound (log ++ [⟨binding, false⟩]) other ↔ Bound log other := by
    intro other
    rw [bound_append]
    exact or_iff_left fun impossible => nomatch impossible.1
  constructor
  · exact rooted_append tracks rooted false
  · exact stems
  · simpa only [boundSame, same] using tracks.bound
  · simpa only [boundSame] using tracks.regular
  · intro first second scope route leaf other boundFirst boundSecond
    exact tracks.once ((boundSame first).mp boundFirst) ((boundSame second).mp boundSecond)
  · rw [List.filter_append, List.filter_cons_of_neg Bool.false_ne_true, List.filter_nil,
      List.append_nil]
    exact tracks.fresh

/-- An attempt that succeeds binds a route that was free. -/
theorem Tracks.accepted (tracks : Tracks trees log) (rooted : Rooted binding.source)
    {pattern : Pattern} (read : Pattern.read? binding.source = .ok pattern)
    (stems : ∀ scope, (after scope).root.Stems (Tried (log ++ [⟨binding, true⟩]) scope))
    (plain : pattern.route.plain = true)
    (free : (trees binding.scope).root.bound pattern.route = none)
    (changed : ∀ scope route, (after scope).root.bound route =
      if scope = binding.scope ∧ route = pattern.route then
        some ⟨pattern.params, binding.endpoint⟩
      else (trees scope).root.bound route) :
    Tracks after (log ++ [⟨binding, true⟩]) := by
  have boundNow : ∀ other,
      Bound (log ++ [⟨binding, true⟩]) other ↔ Bound log other ∨ binding = other := by
    intro other
    rw [bound_append]
    exact or_congr_right (and_iff_right rfl)
  have endsNew : ∀ {scope route leaf}, binding.Ends scope route leaf →
      scope = binding.scope ∧ route = pattern.route ∧
        leaf = ⟨pattern.params, binding.endpoint⟩ := by
    rintro scope route leaf ⟨rfl, other, readOther, rfl, rfl⟩
    cases read.symm.trans readOther
    exact ⟨rfl, rfl, rfl⟩
  -- What was bound before is bound elsewhere.
  have apart : ∀ {other scope route leaf}, Bound log other → other.Ends scope route leaf →
      ¬ (scope = binding.scope ∧ route = pattern.route) := by
    rintro other scope route leaf before ends ⟨rfl, rfl⟩
    have present := (tracks.bound _ _ _).mpr ⟨other, before, ends⟩
    exact nomatch free.symm.trans present
  constructor
  · exact rooted_append tracks rooted true
  · exact stems
  · intro scope route leaf
    rw [changed]
    constructor
    · intro present
      by_cases new : scope = binding.scope ∧ route = pattern.route
      · rw [if_pos new] at present
        refine ⟨binding, (boundNow binding).mpr (Or.inr rfl), new.1.symm, pattern, read,
          new.2.symm, (Option.some.inj present).symm⟩
      · rw [if_neg new] at present
        obtain ⟨other, before, ends⟩ := (tracks.bound _ _ _).mp present
        exact ⟨other, (boundNow other).mpr (Or.inl before), ends⟩
    · rintro ⟨other, bound, ends⟩
      rcases (boundNow other).mp bound with before | rfl
      · rw [if_neg (apart before ends)]
        exact (tracks.bound _ _ _).mpr ⟨other, before, ends⟩
      · obtain ⟨sameScope, sameRoute, rfl⟩ := endsNew ends
        rw [if_pos ⟨sameScope, sameRoute⟩]
  · intro other bound
    rcases (boundNow other).mp bound with before | rfl
    · exact tracks.regular other before
    · exact ⟨pattern, read, plain⟩
  · intro first second scope route leaf other boundFirst boundSecond endsFirst endsSecond
    rcases (boundNow first).mp boundFirst with beforeFirst | rfl
    · rcases (boundNow second).mp boundSecond with beforeSecond | rfl
      · exact tracks.once beforeFirst beforeSecond endsFirst endsSecond
      · obtain ⟨sameScope, sameRoute, _⟩ := endsNew endsSecond
        exact absurd ⟨sameScope, sameRoute⟩ (apart beforeFirst endsFirst)
    · rcases (boundNow second).mp boundSecond with beforeSecond | rfl
      · obtain ⟨sameScope, sameRoute, _⟩ := endsNew endsFirst
        exact absurd ⟨sameScope, sameRoute⟩ (apart beforeSecond endsSecond)
      · rfl
  · rw [List.filter_append, List.filter_cons_of_pos rfl, List.filter_nil]
    refine List.pairwise_append.mpr ⟨tracks.fresh, List.pairwise_singleton _ _, ?_⟩
    rintro earlier member later last ⟨sameScope, sameSource⟩
    obtain rfl := List.mem_singleton.mp last
    obtain ⟨inside, taken⟩ := List.mem_filter.mp member
    have ends : earlier.Ends binding.scope pattern.route ⟨pattern.params, earlier.endpoint⟩ :=
      ⟨sameScope, pattern, sameSource ▸ read, rfl, rfl⟩
    exact apart ⟨earlier, inside, taken, rfl⟩ ends ⟨rfl, rfl⟩

/-- A readable pattern is put in its tree, or refused by it. -/
theorem Tracks.attempt (tracks : Tracks trees log) (rooted : Rooted binding.source)
    (noCut : ∀ earlier ∈ log, ¬ binding.Cuts earlier.toBinding) {pattern : Pattern}
    (read : Pattern.read? binding.source = .ok pattern)
    (changed : ∀ scope, after scope =
      if scope = binding.scope then ((trees binding.scope).insert pattern binding.endpoint).part
      else trees scope) :
    Tracks after (log ++
      [⟨binding, ((trees binding.scope).insert pattern binding.endpoint).fault.isNone⟩]) := by
  have uncut : ∀ other, Tried log binding.scope other → pattern.route.cuts other = false := by
    rintro other ⟨earlier, member, scope, readable, readEarlier, rfl⟩
    rw [Bool.eq_false_iff]
    exact fun cuts => noCut earlier member ⟨scope.symm, pattern, readable, read, readEarlier, cuts⟩
  obtain ⟨stemsHere, grows⟩ := PathTree.insert_grows (tracks.stems binding.scope)
    (tracks.unended binding.scope) pattern binding.endpoint uncut
  have stems : ∀ accepted scope,
      (after scope).root.Stems (Tried (log ++ [⟨binding, accepted⟩]) scope) := by
    intro accepted scope
    rw [changed]
    by_cases here : scope = binding.scope
    · subst here
      rw [if_pos rfl]
      refine stemsHere.mono ?_
      rintro route (before | rfl)
      · exact tried_append.mpr (Or.inl before)
      · exact tried_append.mpr (Or.inr ⟨rfl, pattern, read, rfl⟩)
    · rw [if_neg here]
      exact (tracks.stems scope).mono fun route => tried_append.mpr ∘ Or.inl
  cases fault : ((trees binding.scope).insert pattern binding.endpoint).fault with
  | some cause =>
      rw [fault] at grows
      refine tracks.refused rooted (stems false) fun scope route => ?_
      rw [changed]
      by_cases here : scope = binding.scope
      · subst here
        rw [if_pos rfl]
        exact grows.2 route
      · rw [if_neg here]
  | none =>
      rw [fault] at grows
      obtain ⟨plain, free, bound⟩ := grows
      refine tracks.accepted rooted read (stems true) plain free fun scope route => ?_
      rw [changed]
      by_cases here : scope = binding.scope
      · subst here
        rw [if_pos rfl, bound]
        by_cases same : route = pattern.route
        · rw [if_pos same, if_pos ⟨rfl, same⟩]
        · rw [if_neg same, if_neg fun both => same both.2]
      · rw [if_neg here, if_neg fun both => here both.1]

end Attempts

/-! ## Whole records -/

theorem Tracks.bindPattern {router : Router α} {log : List (Attempt α)}
    (tracks : Tracks router.tree log) (binding : Binding α) (rooted : Rooted binding.source)
    (noCut : ∀ earlier ∈ log, ¬ binding.Cuts earlier.toBinding) :
    let bound := router.bindPattern binding.endpoint binding.source binding.scope
    Tracks bound.1.tree (log ++ [⟨binding, bound.2.isNone⟩]) := by
  rw [Router.bindPattern]
  cases read : Pattern.read? binding.source with
  | error fault =>
      exact tracks.refused rooted
        (fun scope => (tracks.stems scope).mono fun route => tried_append.mpr ∘ Or.inl)
        (fun _ _ => rfl)
  | ok pattern =>
      have done := tracks.attempt rooted noCut read
        (fun scope => Router.tree_withTree router binding.scope scope
          ((router.tree binding.scope).insert pattern binding.endpoint).part)
      simp only
      split
      · rename_i fault isFault
        rwa [isFault] at done
      · rename_i isNone
        rw [isNone] at done
        exact done

theorem Tracks.bindEach {endpoint : Endpoint α} {bindings : List (String × Scope)}
    (rooted : ∀ pair ∈ bindings, Rooted pair.1) {router : Router α} {log : List (Attempt α)}
    (tracks : Tracks router.tree log)
    (uncut : Uncut (log ++ router.attemptsEach endpoint bindings)) :
    Tracks (router.bindEach endpoint bindings).1.tree
      (log ++ router.attemptsEach endpoint bindings) := by
  induction bindings generalizing router log with
  | nil => simpa [Router.bindEach, Router.attemptsEach] using tracks
  | cons pair rest inductionHypothesis =>
      obtain ⟨pattern, scope⟩ := pair
      simp only [Router.bindEach, Router.attemptsEach] at uncut ⊢
      have begins := rooted (pattern, scope) List.mem_cons_self
      have later := fun other member => rooted other (List.mem_cons_of_mem (pattern, scope) member)
      have here : ∀ {accepted more}, Uncut (log ++ ⟨⟨scope, pattern, endpoint⟩, accepted⟩ :: more) →
          ∀ earlier ∈ log, ¬ Binding.Cuts ⟨scope, pattern, endpoint⟩ earlier.toBinding :=
        fun whole earlier member =>
          (List.pairwise_append.mp whole).2.2 earlier member _ List.mem_cons_self
      cases outcome : router.bindPattern endpoint pattern scope with
      | mk changed fault =>
          cases fault with
          | some cause =>
              simp only [outcome] at uncut ⊢
              have step := tracks.bindPattern ⟨scope, pattern, endpoint⟩ begins (here uncut)
              simpa only [outcome, Option.isNone_some] using step
          | none =>
              simp only [outcome] at uncut ⊢
              have step := tracks.bindPattern ⟨scope, pattern, endpoint⟩ begins (here uncut)
              rw [List.append_cons] at uncut ⊢
              simp only [outcome] at step
              exact inductionHypothesis later step uncut

theorem RouteSpec.rooted_bindings {spec : RouteSpec} (rooted : Rooted spec.template) :
    ∀ pair ∈ spec.bindings, Rooted pair.1 := by
  intro pair member
  obtain ⟨pattern, inside, paired⟩ := List.mem_flatMap.mp member
  obtain ⟨scope, _, rfl⟩ := List.mem_map.mp paired
  exact RouteSpec.rooted_patterns rooted pattern inside

theorem Tracks.route {router : Router α} {log : List (Attempt α)} {spec : RouteSpec}
    (rooted : Rooted spec.template) {handler : α} (tracks : Tracks router.tree log)
    (uncut : Uncut (log ++ router.attempts spec handler)) :
    Tracks (router.route spec handler).1.tree (log ++ router.attempts spec handler) := by
  rw [Router.attempts] at uncut ⊢
  rw [Router.route]
  cases conflict : router.conflict? spec with
  | some fault => simpa using tracks
  | none =>
      rw [conflict] at uncut
      exact tracks.bindEach (RouteSpec.rooted_bindings rooted) uncut

/-- The trees of a router hold what is on record, whatever was bound in whatever order. -/
theorem Tracks.routeAll {calls : List (RouteSpec × α)}
    (rooted : ∀ call ∈ calls, Rooted call.1.template) {router : Router α}
    {log : List (Attempt α)} (tracks : Tracks router.tree log)
    (uncut : Uncut (log ++ router.record calls)) :
    Tracks (router.routeAll calls).tree (log ++ router.record calls) := by
  induction calls generalizing router log with
  | nil => simpa [Router.record, Router.routeAll] using tracks
  | cons call rest inductionHypothesis =>
      obtain ⟨spec, handler⟩ := call
      simp only [Router.record, Router.routeAll] at uncut ⊢
      rw [← List.append_assoc] at uncut ⊢
      have before : Uncut (log ++ router.attempts spec handler) :=
        (List.pairwise_append.mp uncut).1
      have rootedHere : Rooted spec.template := rooted (spec, handler) List.mem_cons_self
      have rootedRest : ∀ other ∈ rest, Rooted other.1.template :=
        fun other member => rooted other (List.mem_cons_of_mem _ member)
      exact inductionHypothesis rootedRest (tracks.route rootedHere before) uncut

theorem Tracks.start : Tracks (Router.empty : Router α).tree [] := by
  have same : (Router.empty : Router α).tree = fun _ => PathTree.empty := by
    funext scope
    cases scope <;> rfl
  rw [same]
  exact Tracks.empty

end FunctionGateway.Routing
