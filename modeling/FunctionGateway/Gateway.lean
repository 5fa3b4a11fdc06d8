import FunctionGateway.ConfigFile
import FunctionGateway.Surface

/-!
# Gateways

A gateway is a validated configuration with a router on which the surface is
bound. Constructing one checks the configuration, then reads credentials if
authentication is on, then binds; the first of these that fails is the error.
-/

namespace FunctionGateway

open FunctionGateway.Routing

/-- Everything that can keep a gateway from serving. -/
inductive GatewayError where
  | bind (port : Nat)
  | route (fault : RouteFault)
  | missingCapability (capability : Capability)
  | credentials (file : UnreadableFile)
  | shutdownTimeout (limit : Duration)
  | config (fault : ConfigFault)
  /-- A complaint about the configuration from outside. -/
  | configText (text : String)
deriving DecidableEq

namespace GatewayError

def bindMessage (port : String) : String :=
  "failed to bind 0.0.0.0:" ++ port ++ ": Address already in use (os error 98)"

def message : GatewayError → String
  | bind port => bindMessage (toString port)
  | route fault => fault.message
  | missingCapability capability =>
      "required capability \x60" ++ capability.name ++ "\x60 was not provided"
  | credentials file =>
      "unable to read basic-auth credentials from " ++ file.path ++ ": " ++ file.fault.message
  | shutdownTimeout limit =>
      "server shutdown failed: connections still open after " ++ limit.text
  | config fault => "config: " ++ fault.message
  | configText text => "config: " ++ text

def ofBindFault : Surface.BindFault → GatewayError
  | .missing capability => missingCapability capability
  | .route fault => route fault

end GatewayError

/-- A gateway whose routes are bound. -/
structure Gateway (α : Type) where
  config : ServerConfig
  router : Router (Service α)

namespace Gateway

variable {α : Type}

/-- How long requests in flight get to finish, unless told otherwise. -/
def defaultShutdownTimeout : Duration := Duration.ofSeconds 10

/-- Bind capabilities under a configuration, with credentials from `source` if
authentication is on. -/
def ofSource (config : ServerConfig) (capabilities : CapabilitySet (Service α))
    (source : Except UnreadableFile Credentials) : Except GatewayError (Gateway α) := do
  config.validate.mapError .config
  let auth ←
    if config.enableBasicAuth then (source.mapError .credentials).map some else .ok none
  match Surface.bind Router.empty capabilities (some config.writeTimeout) auth with
  | (_, some fault) => .error (.ofBindFault fault)
  | (router, none) => .ok { config, router }

/-- Bind capabilities under a configuration whose secret directory holds `entries`. -/
def ofMount (config : ServerConfig) (capabilities : CapabilitySet (Service α))
    (entries : List (String × FileEntry)) : Except GatewayError (Gateway α) :=
  ofSource config capabilities (SecretMount.read ⟨config.secretMountPath, entries⟩)

/-- The write deadline of every capability route. -/
def deadline (gateway : Gateway α) : Duration := gateway.config.writeTimeout

def route (gateway : Gateway α) (spec : RouteSpec) (service : Service α) :
    Gateway α × Option RouteFault :=
  match gateway.router.route spec service with
  | (router, fault) => ({ gateway with router }, fault)

end Gateway

end FunctionGateway
