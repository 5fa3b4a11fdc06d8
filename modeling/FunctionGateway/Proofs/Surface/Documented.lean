import FunctionGateway.Proofs.Routing.Reaching
import FunctionGateway.Proofs.Surface.Binding
import FunctionGateway.Proofs.Surface.Forms

/-!
# The documented surface

For every capability the form of its paths and the methods that it answers are documented.
Binding goes through for every set of capabilities that has the required ones, and a router on
which nothing else was bound answers every request as documented.
-/

namespace FunctionGateway

open FunctionGateway.Http
open FunctionGateway.Routing
open FunctionGateway.Text

variable {α : Type}

/-! ## The document -/

namespace Capability

/-- The form of the paths at which a capability is offered. -/
def form : Capability → PathForm
  | functionLister => .exactly "/system/functions"
  | deployFunction => .exactly "/system/functions"
  | deleteFunction => .exactly "/system/functions"
  | updateFunction => .exactly "/system/functions"
  | functionStatus => .named "/system/function/"
  | scaleFunction => .named "/system/scale-function/"
  | info => .exactly "/system/info"
  | secrets => .exactly "/system/secrets"
  | logs => .exactly "/system/logs"
  | listNamespaces => .exactly "/system/namespaces"
  | mutateNamespace => .optional "/system/namespace/"
  | functionProxy => .suffixed "/function/"
  | health => .exactly "/healthz"
  | registerFunction => .exactly "/system/register"
  | invokeFunction => .suffixed "/invoke/"
  | metricFunction => .exactly "/system/metrics"
  | listCheckpoint => .exactly "/system/checkpoints"
  | killAllInstance => .exactly "/danger/kill"

/-- The methods that a capability answers. -/
def methods : Capability → MethodSet
  | functionLister => .one .get
  | deployFunction => .one .post
  | deleteFunction => .one .delete
  | updateFunction => .one .put
  | functionStatus => .one .get
  | scaleFunction => .one .post
  | info => .one .get
  | secrets => .only [.get, .put, .post, .delete]
  | logs => .one .get
  | listNamespaces => .one .get
  | mutateNamespace => .only [.get, .post, .delete, .put]
  | functionProxy => .any
  | health => .one .get
  | registerFunction => .one .post
  | invokeFunction => .any
  | metricFunction => .only [.get, .delete]
  | listCheckpoint => .one .get
  | killAllInstance => .only [.get, .post, .put]

/-- The capabilities without which nothing is bound. -/
def required : List Capability :=
  [functionLister, deployFunction, deleteFunction, updateFunction, functionStatus, scaleFunction,
    info, secrets, logs, listNamespaces, functionProxy]

end Capability

namespace Surface

/-- What a request may come to: the row of a capability with what is in its slot, the answer in
place of namespaces that cannot be changed, or the metrics exposition. -/
inductive Entry (α : Type) where
  | slot (row : SurfaceRow) (own : Service α)
  | fallback
  | exposition

namespace Entry

def form : Entry α → PathForm
  | slot row _ => row.capability.form
  | fallback => .optional "/system/namespace/"
  | exposition => .exactly "/metrics"

def methods : Entry α → MethodSet
  | slot row _ => row.capability.methods
  | fallback => .one .get
  | exposition => .one .get

/-- The service of an entry in its layers. -/
def service (deadline : Option Duration) (auth : Option Credentials) : Entry α → Service α
  | slot row own => row.service deadline auth own
  | fallback => Surface.fallback deadline
  | exposition => .exposition

end Entry

/-- The entries that a set of capabilities has. -/
inductive Offered (capabilities : CapabilitySet (Service α)) : Entry α → Prop
  | slot (row : SurfaceRow) (own : Service α) :
      row ∈ table →
      capabilities.get? row.capability = some own →
      Offered capabilities (.slot row own)
  | fallback :
      capabilities.get? .mutateNamespace = none →
      Offered capabilities .fallback
  | exposition : Offered capabilities .exposition

/-- A method and a path ask for an entry, with a name and a rest where the path shows them. -/
structure Applies (capabilities : CapabilitySet (Service α)) (method : Method) (path : String)
    (entry : Entry α) (name rest : Option String) : Prop where
  offered : Offered capabilities entry
  asked : entry.methods.allows method = true
  has : entry.form.Has path name rest

/-- What a method and a path lead to: the service of the entry they ask for; where there is
none, the other methods with an entry for this path; or nothing. -/
inductive Answers (capabilities : CapabilitySet (Service α)) (deadline : Option Duration)
    (auth : Option Credentials) (method : Method) (path : String) :
    Router.Lookup (Service α) → Prop
  | found (entry : Entry α) (name rest : Option String) :
      Applies capabilities method path entry name rest →
      Answers capabilities deadline auth method path
        (.found (entry.service deadline auth) (PathForm.shown name rest))
  | others (allowed : List Method) :
      (∀ entry name rest, ¬ Applies capabilities method path entry name rest) →
      allowed ≠ [] →
      allowed.Pairwise (fun first second => first.token < second.token) →
      (∀ other, other ∈ allowed ↔
        ∃ entry name rest, Applies capabilities other path entry name rest) →
      Answers capabilities deadline auth method path (.methodNotAllowed allowed)
  | nowhere :
      (∀ other entry name rest, ¬ Applies capabilities other path entry name rest) →
      Answers capabilities deadline auth method path .notFound

theorem route_eq_of_mem_table :
    ∀ row ∈ table, row.route = row.capability.form.route row.capability.methods := by
  decide +kernel

theorem tidy_form (capability : Capability) : capability.form.Tidy := by
  cases capability <;> decide +kernel

namespace Entry

/-- The specification that an entry is bound by. -/
def route (entry : Entry α) : RouteSpec :=
  entry.form.route entry.methods

theorem tidy (entry : Entry α) : entry.form.Tidy := by
  cases entry with
  | slot row own => exact tidy_form row.capability
  | fallback => exact (by decide +kernel : (PathForm.optional "/system/namespace/").Tidy)
  | exposition => exact (by decide +kernel : (PathForm.exactly "/metrics").Tidy)

end Entry

/-- The entry that a row contributes, if it contributes one. -/
def entryOf? (capabilities : CapabilitySet (Service α)) (row : SurfaceRow) : Option (Entry α) :=
  match capabilities.get? row.capability, row.absent with
  | some own, _ => some (.slot row own)
  | none, .notImplemented => some .fallback
  | none, _ => none

/-- The entries of a set of capabilities, in the order in which they are bound. -/
def entries (capabilities : CapabilitySet (Service α)) : List (Entry α) :=
  table.filterMap (entryOf? capabilities) ++ [.exposition]

theorem notImplemented_iff :
    ∀ row ∈ table, row.absent = .notImplemented ↔ row.capability = .mutateNamespace := by
  decide

theorem exists_row (capability : Capability) : ∃ row ∈ table, row.capability = capability := by
  cases capability <;> decide

theorem mem_entries_iff {capabilities : CapabilitySet (Service α)} {entry : Entry α} :
    entry ∈ entries capabilities ↔ Offered capabilities entry := by
  rw [entries, List.mem_append, List.mem_filterMap, List.mem_singleton]
  constructor
  · rintro (⟨row, listed, own⟩ | rfl)
    · rw [entryOf?] at own
      cases filled : capabilities.get? row.capability with
      | some service =>
          rw [filled] at own
          obtain rfl := Option.some.inj own
          exact Offered.slot row service listed filled
      | none =>
          cases absent : row.absent with
          | notImplemented =>
              rw [filled, absent] at own
              obtain rfl := Option.some.inj own
              rw [(notImplemented_iff row listed).mp absent] at filled
              exact Offered.fallback filled
          | fail =>
              rw [filled, absent] at own
              exact nomatch own
          | skip =>
              rw [filled, absent] at own
              exact nomatch own
    · exact Offered.exposition
  · rintro (⟨row, slot, listed, filled⟩ | empty | _)
    · exact Or.inl ⟨row, listed, by rw [entryOf?, filled]⟩
    · obtain ⟨row, listed, own⟩ := exists_row .mutateNamespace
      refine Or.inl ⟨row, listed, ?_⟩
      rw [entryOf?, own, empty, (notImplemented_iff row listed).mpr own]
    · exact Or.inr rfl

/-! ## Binding the document -/

/-- The patterns of the whole table keep clear of each other. -/
theorem separated_table :
    Separated ((table.map SurfaceRow.route ++ [metricsRoute]).flatMap RouteSpec.bindings) where
  rooted := by decide +kernel
  regular := by decide +kernel
  apart := by decide +kernel

theorem bindings_of_notImplemented :
    ∀ row ∈ table, row.absent = .notImplemented →
      ((PathForm.optional "/system/namespace/").route (.one .get)).bindings.Sublist
        row.route.bindings := by
  decide

theorem scopes_methods_ne_nil (entry : Entry α) : scopes entry.route.methods ≠ [] := by
  rw [Entry.route, PathForm.methods_route]
  cases entry with
  | slot row own =>
      rw [Entry.methods]
      cases row.capability <;> decide
  | fallback => exact List.cons_ne_nil _ _
  | exposition => exact List.cons_ne_nil _ _

section Binding

variable {capabilities : CapabilitySet (Service α)}

theorem bindings_sublist_of_entryOf? {row : SurfaceRow} (listed : row ∈ table) {entry : Entry α}
    (own : entryOf? capabilities row = some entry) :
    entry.route.bindings.Sublist row.route.bindings := by
  rw [entryOf?] at own
  cases filled : capabilities.get? row.capability with
  | some service =>
      rw [filled] at own
      obtain rfl := Option.some.inj own
      rw [route_eq_of_mem_table row listed]
      exact List.Sublist.refl _
  | none =>
      cases absent : row.absent with
      | notImplemented =>
          rw [filled, absent] at own
          obtain rfl := Option.some.inj own
          exact bindings_of_notImplemented row listed absent
      | fail =>
          rw [filled, absent] at own
          exact nomatch own
      | skip =>
          rw [filled, absent] at own
          exact nomatch own

theorem bindings_sublist (rows : List SurfaceRow) (listed : ∀ row ∈ rows, row ∈ table) :
    ((rows.filterMap (entryOf? capabilities)).flatMap fun entry => entry.route.bindings).Sublist
      ((rows.map SurfaceRow.route).flatMap RouteSpec.bindings) := by
  induction rows with
  | nil => exact List.Sublist.refl []
  | cons row rest inductionHypothesis =>
      have later := inductionHypothesis fun other member => listed other (.tail row member)
      rw [List.map_cons, List.flatMap_cons]
      cases own : entryOf? capabilities row with
      | none =>
          rw [List.filterMap_cons_none own]
          exact later.trans (List.sublist_append_right _ _)
      | some entry =>
          rw [List.filterMap_cons_some own, List.flatMap_cons]
          exact (bindings_sublist_of_entryOf? (listed row List.mem_cons_self) own).append later

/-- Whatever they are bound to, the routes of the entries keep clear of each other. -/
theorem distinct_entries {β : Type} (handler : Entry α → β) :
    Distinct ((entries capabilities).map fun entry => (entry.route, handler entry)) := by
  constructor
  · refine separated_table.sublist ?_
    rw [List.flatMap_map, entries, List.flatMap_append, List.flatMap_append]
    exact (bindings_sublist table fun _ member => member).append (List.Sublist.refl _)
  · intro call member
    obtain ⟨entry, _, rfl⟩ := List.mem_map.mp member
    exact scopes_methods_ne_nil entry

/-- What a row contributes is its entry. -/
theorem entryOf?_of_contribution (deadline : Option Duration) (auth : Option Credentials)
    {row : SurfaceRow} (listed : row ∈ table) :
    match contribution capabilities row with
    | .missing => True
    | .withheld => entryOf? capabilities row = none
    | .bound spec service guarded => ∃ entry, entryOf? capabilities row = some entry ∧
        entry.route = spec ∧ entry.service deadline auth =
          (layers spec.template deadline (if guarded then auth else none)).apply service := by
  rw [contribution, entryOf?]
  cases filled : capabilities.get? row.capability with
  | some service => exact ⟨_, rfl, (route_eq_of_mem_table row listed).symm, rfl⟩
  | none =>
      cases absent : row.absent with
      | fail => trivial
      | skip => rfl
      | notImplemented =>
          refine ⟨.fallback, rfl, ?_, ?_⟩
          · rw [template_of_notImplemented row listed absent]
            rfl
          · rw [template_of_notImplemented row listed absent]
            rfl

theorem bindRows_eq_routeEach (deadline : Option Duration) (auth : Option Credentials)
    (rows : List SurfaceRow) (listed : ∀ row ∈ rows, row ∈ table)
    (present : ∀ row ∈ rows, contribution capabilities row ≠ .missing)
    (router : Router (Service α)) :
    bindRows capabilities deadline auth router rows =
      (router.routeEach ((rows.filterMap (entryOf? capabilities)).map fun entry =>
        (entry.route, entry.service deadline auth))).map id (Option.map .route) := by
  induction rows generalizing router with
  | nil => rfl
  | cons row rest inductionHypothesis =>
      have later := inductionHypothesis (fun other member => listed other (.tail row member))
        (fun other member => present other (.tail row member))
      have own := @entryOf?_of_contribution _ capabilities deadline auth row
        (listed row List.mem_cons_self)
      cases contributed : contribution capabilities row with
      | missing => exact absurd contributed (present row List.mem_cons_self)
      | withheld =>
          rw [contributed] at own
          rw [bindRows_of_withheld _ _ _ _ _ contributed, List.filterMap_cons_none own, later]
      | bound spec service guarded =>
          rw [contributed] at own
          obtain ⟨entry, isEntry, rfl, same⟩ := own
          rw [bindRows_of_bound _ _ _ _ _ contributed, List.filterMap_cons_some isEntry,
            List.map_cons, Router.routeEach, ← same]
          cases router.route entry.route (entry.service deadline auth) with
          | mk changed fault =>
              cases fault with
              | none => exact later changed
              | some fault => rfl

theorem capability_mem_required :
    ∀ row ∈ table, row.absent = .fail → row.capability ∈ Capability.required := by
  decide

theorem contribution_ne_missing
    (complete : ∀ capability ∈ Capability.required, (capabilities.get? capability).isSome = true)
    {row : SurfaceRow} (listed : row ∈ table) : contribution capabilities row ≠ .missing := by
  rw [contribution]
  cases filled : capabilities.get? row.capability with
  | some service => exact nofun
  | none =>
      cases absent : row.absent with
      | skip => exact nofun
      | notImplemented => exact nofun
      | fail =>
          have present := complete row.capability (capability_mem_required row listed absent)
          rw [filled] at present
          exact nomatch present

/-- Binding the surface is binding the entries one after the other. -/
theorem bind_of_routeEach
    (complete : ∀ capability ∈ Capability.required, (capabilities.get? capability).isSome = true)
    {deadline : Option Duration} {auth : Option Credentials} {router : Router (Service α)}
    (bound : Router.empty.routeEach ((entries capabilities).map fun entry =>
      (entry.route, entry.service deadline auth)) = (router, none)) :
    bind Router.empty capabilities deadline auth = (router, none) := by
  have rows := bindRows_eq_routeEach deadline auth table (fun _ member => member)
    (fun row listed => contribution_ne_missing complete listed) Router.empty
  rw [entries, List.map_append, Router.routeEach_append] at bound
  generalize Router.empty.routeEach _ = outcome at rows bound
  obtain ⟨changed, fault⟩ := outcome
  cases fault with
  | some fault => cases congrArg Prod.snd bound
  | none =>
      change Router.routeEach changed [(metricsRoute, .exposition)] = (router, none) at bound
      rw [Router.routeEach] at bound
      refine bind_eq_none_iff_rows.mpr ⟨changed, rows, ?_⟩
      generalize changed.route metricsRoute .exposition = last at bound ⊢
      obtain ⟨complete, fault⟩ := last
      cases fault with
      | some fault => cases congrArg Prod.snd bound
      | none =>
          obtain rfl := congrArg Prod.fst bound
          rfl

theorem bind_eq_none
    (complete : ∀ capability ∈ Capability.required, (capabilities.get? capability).isSome = true)
    (deadline : Option Duration) (auth : Option Credentials) :
    ∃ router, bind Router.empty capabilities deadline auth = (router, none) ∧
      ∀ method path answer, router.lookup method path = answer ↔
        Settled ((entries capabilities).map fun entry =>
          (entry.route, entry.service deadline auth)) method path answer := by
  obtain ⟨router, bound, settles⟩ := Router.routeEach_settles
    (distinct_entries (Entry.service deadline auth) : Distinct ((entries capabilities).map _))
  exact ⟨router, bind_of_routeEach complete bound, settles⟩

/-! ## Lookups in the document -/

theorem serves_iff_applies {β : Type} (handler : Entry α → β) (method : Method) (path : String) :
    (∃ call ∈ (entries capabilities).map fun entry => (entry.route, handler entry),
        ∃ params, call.1.Serves method path params) ↔
      ∃ entry name rest, Applies capabilities method path entry name rest := by
  constructor
  · rintro ⟨call, member, params, serves⟩
    obtain ⟨entry, offered, rfl⟩ := List.mem_map.mp member
    obtain ⟨asked, name, rest, has, _⟩ :=
      (PathForm.serves_route_iff entry.tidy entry.methods method path params).mp serves
    exact ⟨entry, name, rest, mem_entries_iff.mp offered, asked, has⟩
  · rintro ⟨entry, name, rest, offered, asked, has⟩
    refine ⟨_, List.mem_map_of_mem (mem_entries_iff.mpr offered), PathForm.shown name rest, ?_⟩
    exact PathForm.serves_of_has entry.tidy asked has

theorem settled_of_applies {β : Type} (handler : Entry α → β) {method : Method} {path : String}
    {entry : Entry α} {name rest : Option String}
    (applies : Applies capabilities method path entry name rest) :
    Settled ((entries capabilities).map fun entry => (entry.route, handler entry)) method path
      (.found (handler entry) (PathForm.shown name rest)) :=
  Settled.found entry.route _ _
    (List.mem_map_of_mem (mem_entries_iff.mpr applies.offered))
    (PathForm.serves_of_has entry.tidy applies.asked applies.has)

theorem settled_iff_answers (deadline : Option Duration) (auth : Option Credentials)
    (method : Method) (path : String) (answer : Router.Lookup (Service α)) :
    Settled ((entries capabilities).map fun entry => (entry.route, entry.service deadline auth))
        method path answer ↔
      Answers capabilities deadline auth method path answer := by
  have serves := @serves_iff_applies _ capabilities _ (Entry.service deadline auth)
  constructor
  · intro settled
    cases settled with
    | found spec service params member served =>
        obtain ⟨entry, offered, same⟩ := List.mem_map.mp member
        obtain ⟨rfl, rfl⟩ := Prod.mk.inj same
        obtain ⟨asked, name, rest, has, rfl⟩ :=
          (PathForm.serves_route_iff entry.tidy entry.methods method path params).mp served
        exact Answers.found entry name rest ⟨mem_entries_iff.mp offered, asked, has⟩
    | others allowed silent nonempty sorted members =>
        refine Answers.others allowed (fun entry name rest applies => ?_) nonempty sorted
          fun other => (members other).trans (serves other path)
        obtain ⟨call, member, params, served⟩ :=
          (serves method path).mpr ⟨entry, name, rest, applies⟩
        exact silent call member params served
    | nowhere silent =>
        refine Answers.nowhere fun other entry name rest applies => ?_
        obtain ⟨call, member, params, served⟩ :=
          (serves other path).mpr ⟨entry, name, rest, applies⟩
        exact silent other call member params served
  · intro answers
    cases answers with
    | found entry name rest applies =>
        exact settled_of_applies (Entry.service deadline auth) applies
    | others allowed silent nonempty sorted members =>
        refine Settled.others allowed (fun call member params served => ?_) nonempty sorted
          fun other => (members other).trans (serves other path).symm
        obtain ⟨entry, name, rest, applies⟩ :=
          (serves method path).mp ⟨call, member, params, served⟩
        exact silent entry name rest applies
    | nowhere silent =>
        refine Settled.nowhere fun other call member params served => ?_
        obtain ⟨entry, name, rest, applies⟩ := (serves other path).mp ⟨call, member, params, served⟩
        exact silent other entry name rest applies

/-- What a form shows is told by the parameters. -/
theorem shown_injective {name rest other more : Option String}
    (same : PathForm.shown name rest = PathForm.shown other more) : name = other ∧ rest = more := by
  cases name <;> cases other <;> cases rest <;> cases more <;> simp_all [PathForm.shown]

/-- A method and a path ask for one entry at most. -/
theorem Applies.unique {method : Method} {path : String} {first second : Entry α}
    {name rest other more : Option String}
    (left : Applies capabilities method path first name rest)
    (right : Applies capabilities method path second other more) :
    first = second ∧ name = other ∧ rest = more := by
  -- A router whose handlers are the entries themselves finds one of them.
  obtain ⟨router, _, settles⟩ := Router.routeEach_settles
    (@distinct_entries _ capabilities _ id)
  have found := (settles method path _).mpr (settled_of_applies id left)
  rw [(settles method path _).mpr (settled_of_applies id right)] at found
  obtain ⟨same, shown⟩ := Router.Lookup.found.inj found
  exact ⟨same.symm, shown_injective shown.symm⟩

end Binding

end Surface

/-- Only the required slots are filled, each with a handler of its own. -/
def CapabilitySet.bare : CapabilitySet (Service Capability) :=
  ⟨fun capability =>
    if capability ∈ Capability.required then some (.handler capability) else none⟩

theorem CapabilitySet.bare_complete :
    ∀ capability ∈ Capability.required, (CapabilitySet.bare.get? capability).isSome = true := by
  decide

end FunctionGateway
