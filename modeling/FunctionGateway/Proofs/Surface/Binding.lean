import FunctionGateway.Gateway

/-!
# Binding the surface row by row

The equations of binding, one for each thing that a row can contribute, and what it takes for a
gateway to be constructed.
-/

namespace FunctionGateway

open FunctionGateway.Routing

variable {α : Type}

/-- The service that answers a row whose slot is filled. -/
def SurfaceRow.service (row : SurfaceRow) (deadline : Option Duration)
    (auth : Option Credentials) (slot : Service α) : Service α :=
  (Surface.layers row.route.template deadline (if row.requiresAuth then auth else none)).apply slot

namespace Surface

/-- The service that stands in for namespaces that cannot be changed. -/
def fallback (deadline : Option Duration) : Service α :=
  (layers namespacePath deadline none).apply (.answer notImplemented)

theorem template_of_notImplemented :
    ∀ row ∈ table, row.absent = .notImplemented → row.route.template = namespacePath := by
  decide

/-- Go on after a route was bound, or stop with the fault that kept it from being
bound. -/
def proceed (next : Router (Service α) → Router (Service α) × Option BindFault) :
    Router (Service α) × Option RouteFault → Router (Service α) × Option BindFault
  | (changed, none) => next changed
  | (changed, some fault) => (changed, some (.route fault))

section Rows

variable (capabilities : CapabilitySet (Service α)) (deadline : Option Duration)
  (auth : Option Credentials) (router : Router (Service α)) {row : SurfaceRow}
  (rest : List SurfaceRow)

theorem bindRows_of_bound {spec : RouteSpec} {service : Service α} {guarded : Bool}
    (bound : contribution capabilities row = .bound spec service guarded) :
    bindRows capabilities deadline auth router (row :: rest) =
      proceed (bindRows capabilities deadline auth · rest)
        (router.route spec
          ((layers spec.template deadline (if guarded then auth else none)).apply service)) := by
  simp only [bindRows, bound]
  cases router.route spec
      ((layers spec.template deadline (if guarded then auth else none)).apply service) with
  | mk changed fault => cases fault <;> rfl

theorem bindRows_of_withheld (withheld : contribution capabilities row = .withheld) :
    bindRows capabilities deadline auth router (row :: rest) =
      bindRows capabilities deadline auth router rest := by
  simp only [bindRows, withheld]

theorem bindRows_of_missing (missing : contribution capabilities row = .missing) :
    bindRows capabilities deadline auth router (row :: rest) =
      (router, some (.missing row.capability)) := by
  simp only [bindRows, missing]

end Rows

/-! ## Binding that goes through -/

/-- What becomes of a router where a row does not end the binding. -/
inductive RowBound (capabilities : CapabilitySet (Service α)) (deadline : Option Duration)
    (auth : Option Credentials) (router : Router (Service α)) (row : SurfaceRow) :
    Router (Service α) → Prop
  | withheld :
      contribution capabilities row = .withheld →
      RowBound capabilities deadline auth router row router
  | bound (spec : RouteSpec) (service : Service α) (guarded : Bool) (next : Router (Service α)) :
      contribution capabilities row = .bound spec service guarded →
      router.route spec
          ((layers spec.template deadline (if guarded then auth else none)).apply service) =
        (next, none) →
      RowBound capabilities deadline auth router row next

section Through

variable {capabilities : CapabilitySet (Service α)} {deadline : Option Duration}
  {auth : Option Credentials} {router : Router (Service α)} {row : SurfaceRow}

theorem RowBound.not_missing {next : Router (Service α)}
    (step : RowBound capabilities deadline auth router row next) :
    contribution capabilities row ≠ .missing := by
  cases step with
  | withheld contributed =>
      rw [contributed]
      exact nofun
  | bound spec service guarded next contributed routed =>
      rw [contributed]
      exact nofun

/-- Binding goes on behind such a row. -/
theorem RowBound.bindRows_cons {next : Router (Service α)}
    (step : RowBound capabilities deadline auth router row next) (rest : List SurfaceRow) :
    bindRows capabilities deadline auth router (row :: rest) =
      bindRows capabilities deadline auth next rest := by
  cases step with
  | withheld contributed => exact bindRows_of_withheld _ _ _ _ _ contributed
  | bound spec service guarded next contributed routed =>
      rw [bindRows_of_bound _ _ _ _ _ contributed, routed]
      rfl

theorem bindRows_cons_eq_none_iff {rest : List SurfaceRow} {changed : Router (Service α)} :
    bindRows capabilities deadline auth router (row :: rest) = (changed, none) ↔
      ∃ next, RowBound capabilities deadline auth router row next ∧
        bindRows capabilities deadline auth next rest = (changed, none) := by
  constructor
  · intro bound
    cases contributed : contribution capabilities row with
    | missing =>
        rw [bindRows_of_missing _ _ _ _ _ contributed] at bound
        cases (Prod.mk.inj bound).2
    | withheld =>
        rw [bindRows_of_withheld _ _ _ _ _ contributed] at bound
        exact ⟨router, RowBound.withheld contributed, bound⟩
    | bound spec service guarded =>
        rw [bindRows_of_bound _ _ _ _ _ contributed] at bound
        generalize routed : router.route spec _ = outcome at bound
        obtain ⟨next, fault⟩ := outcome
        cases fault with
        | some fault => cases (Prod.mk.inj bound).2
        | none => exact ⟨next, RowBound.bound spec service guarded next contributed routed, bound⟩
  · rintro ⟨next, step, others⟩
    exact (step.bindRows_cons rest).trans others

/-- All is bound if all rows are, and the exposition after them. -/
theorem bind_eq_none_iff_rows {complete : Router (Service α)} :
    bind router capabilities deadline auth = (complete, none) ↔
      ∃ changed, bindRows capabilities deadline auth router table = (changed, none) ∧
        changed.route metricsRoute .exposition = (complete, none) := by
  constructor
  · intro bound
    rw [bind] at bound
    generalize bindRows capabilities deadline auth router table = outcome at bound ⊢
    obtain ⟨changed, fault⟩ := outcome
    cases fault with
    | some fault => cases (Prod.mk.inj bound).2
    | none =>
        simp only at bound
        generalize step : changed.route metricsRoute .exposition = outcome at bound
        obtain ⟨last, fault⟩ := outcome
        cases fault with
        | some fault => cases (Prod.mk.inj bound).2
        | none =>
            obtain rfl := (Prod.mk.inj bound).1
            exact ⟨changed, rfl, step⟩
  · rintro ⟨changed, rows, last⟩
    rw [bind, rows]
    simp only [last, Option.map_none]

end Through

end Surface

/-! ## Gateways -/

namespace Gateway

/-- The credentials that a configuration asks for, from where they are kept. -/
def asked (config : ServerConfig) (source : Except UnreadableFile Credentials) :
    Except UnreadableFile (Option Credentials) :=
  if config.enableBasicAuth then source.map some else .ok none

/-- The gateway that comes of binding, or the error. -/
def ofBound (config : ServerConfig) :
    Router (Service α) × Option Surface.BindFault → Except GatewayError (Gateway α)
  | (_, some fault) => .error (.ofBindFault fault)
  | (router, none) => .ok { config, router }

theorem ofBound_eq_ok_iff {config : ServerConfig}
    {outcome : Router (Service α) × Option Surface.BindFault} {gateway : Gateway α} :
    ofBound config outcome = .ok gateway ↔
      gateway.config = config ∧ outcome = (gateway.router, none) := by
  obtain ⟨router, fault⟩ := outcome
  obtain ⟨own, bound⟩ := gateway
  cases fault with
  | some fault => simp [ofBound]
  | none => simp [ofBound, eq_comm]

section Construction

variable {config : ServerConfig} {capabilities : CapabilitySet (Service α)}
  {source : Except UnreadableFile Credentials}

theorem ofSource_of_invalid {fault : ConfigFault} (invalid : config.validate = .error fault) :
    ofSource config capabilities source = .error (.config fault) := by
  rw [ofSource, invalid]
  rfl

theorem ofSource_of_unreadable (valid : config.validate = .ok ()) {file : UnreadableFile}
    (unreadable : asked config source = .error file) :
    ofSource config capabilities source = .error (.credentials file) := by
  rw [asked] at unreadable
  rw [ofSource, valid]
  cases enabled : config.enableBasicAuth with
  | false => simp [enabled] at unreadable
  | true =>
      cases source with
      | ok credentials => simp [enabled, Except.map] at unreadable
      | error own =>
          simp only [enabled, if_true, Except.map, Except.error.injEq] at unreadable
          rw [unreadable]
          rfl

theorem ofSource_of_asked (valid : config.validate = .ok ()) {auth : Option Credentials}
    (read : asked config source = .ok auth) :
    ofSource config capabilities source =
      ofBound config
        (Surface.bind Router.empty capabilities (some config.writeTimeout) auth) := by
  rw [asked] at read
  rw [ofSource, valid]
  cases enabled : config.enableBasicAuth with
  | false =>
      simp only [enabled, Bool.false_eq_true, if_false, Except.ok.injEq] at read
      rw [← read]
      rfl
  | true =>
      cases source with
      | error file => simp [enabled, Except.map] at read
      | ok credentials =>
          simp only [enabled, if_true, Except.map, Except.ok.injEq] at read
          rw [← read]
          rfl

/-- A gateway is a valid configuration with a router on which everything was bound. -/
theorem ofSource_eq_ok_iff {gateway : Gateway α} :
    ofSource config capabilities source = .ok gateway ↔
      config.validate = .ok () ∧ gateway.config = config ∧
        ∃ auth, asked config source = .ok auth ∧
          Surface.bind Router.empty capabilities (some config.writeTimeout) auth =
            (gateway.router, none) := by
  cases validated : config.validate with
  | error fault => simp [ofSource_of_invalid validated]
  | ok _ =>
      cases read : asked config source with
      | error file => simp [ofSource_of_unreadable validated read]
      | ok auth => simp [ofSource_of_asked validated read, ofBound_eq_ok_iff]

end Construction

end Gateway

end FunctionGateway
