import FunctionGateway.Server.Connection

/-!
# Draining

Once a shutdown has begun, no connection is added, and the ones in flight get
until the end of the drain timeout to finish. If all are answered by then the
drain succeeds as soon as the last one is; otherwise what is left is aborted at
the end of the timeout, and the shutdown reports that.
-/

namespace FunctionGateway

structure Drained (φ σ : Type) where
  connections : List (Connection φ)
  world : World σ
  result : Except GatewayError Unit

variable {α φ σ : Type}

/-- A connection moves on at most twice: when its body is settled and when its answer is. -/
def drainTurns (connections : List (Connection φ)) : Nat :=
  2 * connections.length + 1

/-- Drain connections, beginning at the present instant. -/
def drain (backend : Backend α φ σ) (gateway : Gateway α) (timeout : Duration)
    (connections : List (Connection φ)) (world : World σ) : Drained φ σ :=
  let limit := world.now + timeout.nanos
  let (moved, after) :=
    Connection.advance backend gateway limit (drainTurns connections) connections world
  if moved.any Connection.isOpen then
    let (left, final) := Connection.each (Connection.abort backend) moved (after.reach limit)
    { connections := left, world := final, result := .error (.shutdownTimeout timeout) }
  else
    { connections := moved, world := after, result := .ok () }

end FunctionGateway
