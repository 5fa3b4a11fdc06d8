import FunctionGateway.Time

/-!
# Server configuration

Every setting has a default. A timeout of zero is no timeout, and a port that is
not set is the default port.
-/

namespace FunctionGateway

structure ServerConfig where
  /-- Time to read a request's head and body. -/
  readTimeout : Duration := Duration.zero
  /-- Time for a handler to produce a response. -/
  writeTimeout : Duration := Duration.zero
  tcpPort : Option Nat := none
  enableBasicAuth : Bool := false
  secretMountPath : String := "/var/openfaas/secrets"
  /-- The most bytes a request head may have. -/
  maxHeaderBytes : Nat := 1048576
deriving DecidableEq

namespace ServerConfig

def defaultPort : Nat := 8080

def minHeaderBytes : Nat := 8192

def port (config : ServerConfig) : Nat := config.tcpPort.getD defaultPort

end ServerConfig

end FunctionGateway
