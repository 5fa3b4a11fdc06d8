import FunctionGateway.Server.Drain
import FunctionGateway.Server.Lifecycle

/-!
# Running servers

A running server is a gateway on a host together with the moment of its life and
the connections it has in flight, each with one request. Starting fails if the
port is taken. Serving until a signal means to start, to wait for the signal, and
to shut down; a signal that fails is the result itself.
-/

namespace FunctionGateway

/-- The host of a server: whether another process holds the port, and whether clients
can reach the host at all. -/
structure Host where
  portTaken : Bool
  reachable : Bool
deriving DecidableEq

structure Running (α φ σ : Type) where
  gateway : Gateway α
  drainTimeout : Duration
  life : Lifecycle
  connections : List (Connection φ)
  world : World σ

/-- The moment of life at which a gateway has its routes bound. -/
def Gateway.life : Option Lifecycle :=
  Lifecycle.new.run [.create, .bindRoutes]

namespace Running

variable {α φ σ : Type}

/-- Bind the port and begin to serve. -/
def start (host : Host) (gateway : Gateway α) (drainTimeout : Duration) (world : World σ) :
    Except GatewayError (Running α φ σ) :=
  match Gateway.life.bind (·.run [.bindPort (!host.portTaken), .publishServing]) with
  | some life => .ok { gateway, drainTimeout, life, connections := [], world }
  | none => .error (.bind gateway.config.port)

/-- Whether a client that connects now gets a connection. -/
def admits (running : Running α φ σ) (host : Host) : Bool :=
  host.reachable && running.life.listening

def live (running : Running α φ σ) (events : List LifeEvent) : Option (Running α φ σ) :=
  (running.life.run events).map fun life => { running with life }

/-- Accept a connection on which the head of a request comes at once and the body as
`delivery` tells. -/
def arrive (running : Running α φ σ) (request : Http.Request) (delivery : Delivery) :
    Option (Running α φ σ) :=
  (running.live [.connect, .beginTurn, .accept]).map fun accepted =>
    let incoming := { request, since := running.world.now, delivery }
    { accepted with connections := running.connections ++ [.receiving incoming] }

/-- Let time pass up to `instant`. A connection is finished once its request is answered. -/
def wait (backend : Backend α φ σ) (running : Running α φ σ) (instant : Instant) :
    Option (Running α φ σ) :=
  let (moved, after) :=
    Connection.advance backend running.gateway instant (drainTurns running.connections)
      running.connections running.world
  let finished := running.connections.countP Connection.isOpen - moved.countP Connection.isOpen
  (running.live (List.replicate finished .finish)).map fun later =>
    { later with connections := moved, world := after.reach instant }

/-- What the accept loop does once it has a reason to leave. -/
def leaving : List LifeEvent := [.beginTurn, .closeListener, .publishDraining]

/-- Ask for a shutdown and wait until the server drains. -/
def beginShutdown (running : Running α φ σ) : Option (Running α φ σ) :=
  running.live (.requestShutdown :: leaving)

/-- Drop the handle and wait until the server drains. -/
def dropHandle (running : Running α φ σ) : Option (Running α φ σ) :=
  running.live (.dropHandle :: leaving)

/-- Wait until the server has stopped, with the result of the drain. -/
def finishDrain (backend : Backend α φ σ) (running : Running α φ σ) :
    Option (Except GatewayError Unit × Running α φ σ) :=
  let drained :=
    drain backend running.gateway running.drainTimeout running.connections running.world
  let ending :=
    match drained.result with
    | .ok _ => List.replicate running.life.connections .finish ++ [LifeEvent.drainEnds .finished]
    | .error _ => [.drainEnds .timedOut]
  (running.live (ending ++ [.publishStopped])).map fun stopped =>
    (drained.result, { stopped with connections := drained.connections, world := drained.world })

/-- Wait for the result of a shutdown that was asked for. -/
def awaitShutdown (backend : Backend α φ σ) (running : Running α φ σ) :
    Option (Except GatewayError Unit × Running α φ σ) :=
  (running.finishDrain backend).bind fun (result, stopped) =>
    (stopped.live [.shutdownReturns]).map fun returned => (result, returned)

end Running

def serveUntil {α φ σ : Type} (backend : Backend α φ σ) (host : Host) (gateway : Gateway α)
    (drainTimeout : Duration) (signal : Except GatewayError Unit) (world : World σ) :
    Except GatewayError Unit := do
  let running : Running α φ σ ← Running.start host gateway drainTimeout world
  signal
  match running.beginShutdown.bind (·.awaitShutdown backend) with
  | some (result, _) => result
  | none => .ok ()

/-- The exit code of a process that serves: zero after a drain, one after an error. -/
def exitCode (result : Except GatewayError Unit) : Nat :=
  match result with
  | .ok _ => 0
  | .error _ => 1

end FunctionGateway
