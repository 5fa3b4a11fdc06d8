import FunctionGateway.Proofs.Routing.Fixed
import FunctionGateway.Proofs.Surface.Deadlines
import FunctionGateway.Proofs.Surface.Listing
import FunctionGateway.Proofs.Surface.Sending

/-!
# The fixed paths of a gateway

The rows of the surface whose patterns hold no parameter are the fixed paths of a gateway.
Routes may be added to it, of any kind, and binding them may fail half-way; requests for
the fixed paths go on to reach what they reached before, and the rows stay in the table.
-/

namespace FunctionGateway

open FunctionGateway.Http
open FunctionGateway.Routing
open FunctionGateway.Text

variable {α : Type}

/-- Adding routes to a gateway is adding them to its router. -/
theorem Gateway.router_extend (gateway : Gateway α) (additions : List (RouteSpec × Service α)) :
    (gateway.extend additions).router = gateway.router.routeAll additions := by
  induction additions generalizing gateway with
  | nil => rfl
  | cons addition rest inductionHypothesis =>
      exact inductionHypothesis (gateway.route addition.1 addition.2).1

namespace Surface

/-! ## Rows without parameters -/

/-- A capability that answers every method has no fixed path. -/
theorem braces_of_any (capability : Capability) :
    Scope.any ∈ scopes capability.methods →
      ∀ pattern ∈ (capability.form.route capability.methods).patterns, ¬ Braceless pattern := by
  cases capability <;> decide +kernel

theorem Entry.scope_of_braceless {entry : Entry α} {pattern : String}
    (inPatterns : pattern ∈ entry.route.patterns) (braceless : Braceless pattern) {scope : Scope}
    (asked : scope ∈ scopes entry.route.methods) : ∃ method, scope = .only method := by
  rw [Entry.route, PathForm.methods_route] at asked
  cases scope with
  | only method => exact ⟨method, rfl⟩
  | any =>
      cases entry with
      | slot row own =>
          exact absurd braceless (braces_of_any row.capability asked pattern inPatterns)
      | fallback => cases List.mem_singleton.mp asked
      | exposition => cases List.mem_singleton.mp asked

variable {capabilities : CapabilitySet (Service α)} {deadline : Option Duration}
  {auth : Option Credentials} {router : Router (Service α)}

/-- A bound router holds the routes of the entries, and nothing else. -/
theorem holds_of_bind
    (bound : bind Router.empty capabilities deadline auth = (router, none)) :
    router.Holds (acceptedAll ((entries capabilities).map fun entry =>
      (entry.route, entry.service deadline auth))) := by
  have distinct : Distinct ((entries capabilities).map fun entry =>
      (entry.route, entry.service deadline auth)) := distinct_entries (Entry.service deadline auth)
  obtain ⟨same, routed, holds⟩ := Router.Holds.start.routeEach distinct.separated distinct.asks
  obtain rfl : same = router := (Prod.mk.inj
    ((bind_of_routeEach (complete_of_bind bound) routed).symm.trans bound)).1
  exact holds

/-- A row without parameters is a fixed path of an entry. -/
theorem fixes_of_row
    (bound : bind Router.empty capabilities deadline auth = (router, none)) {row : RouteEntry}
    (listed : row ∈ router.table) (braceless : Braceless row.pattern) {method : Method}
    (own : method.token = row.method) :
    ∃ entry, Applies capabilities method row.pattern entry none none ∧
      router.Fixes method row.pattern ⟨entry.service deadline auth, entry.route.constraints⟩ := by
  have holds := holds_of_bind bound
  obtain ⟨⟨⟨scope, pattern, endpoint⟩, _⟩, member, rfl⟩ := holds.tabled row listed
  have taken : Bound _ ⟨scope, pattern, endpoint⟩ :=
    ⟨_, member, accepted_acceptedAll _ member, rfl⟩
  obtain ⟨spec, handler, inCalls, inPatterns, asked, rfl⟩ := bound_acceptedAll_iff.mp taken
  obtain ⟨entry, offered, same⟩ := List.mem_map.mp inCalls
  obtain ⟨rfl, rfl⟩ := Prod.mk.inj same
  obtain ⟨other, rfl⟩ := entry.scope_of_braceless inPatterns braceless asked
  obtain rfl : method = other := by
    have read := method.ofString?_token
    rw [own] at read
    exact Option.some.inj (read.symm.trans other.ofString?_token)
  refine ⟨entry, ?_, holds.tracks.fixes taken braceless⟩
  have shown : Shows pattern pattern [] := (PathForm.shows_front_iff braceless).mpr ⟨rfl, rfl⟩
  have serves : entry.route.Serves method pattern [] :=
    ⟨allows_iff.mpr (Or.inl asked), ⟨pattern, inPatterns, shown⟩,
      List.all_eq_true.mpr fun _ _ => rfl⟩
  obtain ⟨allowed, name, rest, has, nothing⟩ :=
    (PathForm.serves_route_iff entry.tidy entry.methods method pattern []).mp serves
  obtain ⟨rfl, rfl⟩ : none = name ∧ none = rest := shown_injective nothing
  exact ⟨mem_entries_iff.mp offered, allowed, has⟩

end Surface

/-- Whatever is added to a gateway, its rows stay in the table, and at the paths of those without
parameters the same handlers are reached, in the same layers. -/
theorem Gateway.resolve_extend_of_braceless {config : ServerConfig}
    {capabilities : CapabilitySet (Service α)} {source : Except UnreadableFile Credentials}
    {gateway : Gateway α} (built : Gateway.ofSource config capabilities source = .ok gateway)
    (additions : List (RouteSpec × Service α)) :
    ∃ auth, Gateway.asked config source = .ok auth ∧
      ∀ row ∈ Surface.rows capabilities.contains,
        row ∈ gateway.router.table ∧ row ∈ (gateway.extend additions).router.table ∧
          (Braceless row.pattern → ∀ request : Request,
            request.method.token = row.method → Percent.decode request.path = row.pattern →
              ∃ entry : Surface.Entry α,
                Surface.Applies capabilities request.method row.pattern entry none none ∧
                  let service := entry.service (some config.writeTimeout) auth
                  gateway.router.resolve request = .found service [] ∧
                    (gateway.extend additions).router.resolve request = .found service []) := by
  obtain ⟨_, _, auth, asked, bound⟩ := Gateway.ofSource_eq_ok_iff.mp built
  refine ⟨auth, asked, fun row member => ?_⟩
  have listed := ((Surface.lists_bind bound).member row).mpr member
  rw [gateway.router_extend]
  refine ⟨listed, Router.mem_table_routeAll listed additions, ?_⟩
  intro braceless request own path
  obtain ⟨entry, applies, fixes⟩ := Surface.fixes_of_row bound listed braceless own
  refine ⟨entry, applies, ?_⟩
  rw [Router.resolve, Router.resolve, path]
  exact ⟨fixes.lookup, (fixes.routeAll additions).lookup⟩

/-- One addition is bound for every path, one asks for a path that is taken, and one gets stuck
at its second pattern. -/
theorem Gateway.resolve_extend_of_braceless_bare :
    let config : ServerConfig := { enableBasicAuth := true }
    let additions : List (RouteSpec × Service Capability) :=
      [(.exactly "/\x7b*rest\x7d" .any, .handler .logs),
        (.exactly "/system/info" (.one .get), .handler .health),
        ((RouteSpec.exactly "/system/function/\x7bid\x7d" (.one .get)).withOptionalTail,
          .handler .secrets)]
    let request : Request :=
      { method := .get, target := ⟨"/system/%69nfo", none⟩, fields := [], body := [] }
    ∃ gateway service,
      Gateway.ofSource config CapabilitySet.bare (.ok ⟨"admin", "secret"⟩) = .ok gateway ∧
        gateway.router.resolve request = .found service [] ∧
        (gateway.extend additions).router.resolve request = .found service [] := by
  intro config additions request
  obtain ⟨router, bound, _⟩ := Surface.bind_eq_none CapabilitySet.bare_complete
    (some Duration.zero) (some ⟨"admin", "secret"⟩)
  have built : Gateway.ofSource config CapabilitySet.bare (.ok ⟨"admin", "secret"⟩) =
      .ok ⟨config, router⟩ :=
    Gateway.ofSource_eq_ok_iff.mpr ⟨rfl, rfl, some ⟨"admin", "secret"⟩, rfl, bound⟩
  obtain ⟨auth, _, rows⟩ := Gateway.resolve_extend_of_braceless built additions
  obtain ⟨_, _, fixed⟩ := rows ⟨"/system/info", "GET"⟩ (by decide +kernel)
  obtain ⟨entry, _, before, after⟩ := fixed (by decide +kernel) request rfl (by decide +kernel)
  exact ⟨_, _, built, before, after⟩

end FunctionGateway
