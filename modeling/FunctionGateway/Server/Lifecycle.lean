/-!
# The life of a server

A server is idle, starting, serving, draining and stopped, in this order, and
publishes each state once. Its accept loop runs beside its owner, who may ask for
a shutdown or drop the handle at any moment. The machine below takes one small
step at a time, in any order in which the steps are possible: an event that is
not possible in a state has no next state.

The loop begins each of its turns by looking for a reason to leave, and accepts a
connection later in that turn; a reason that comes up between the two is seen
in the next turn. The loop closes the listener before it publishes that it drains,
and publishes that it has stopped before the shutdown call returns.
-/

namespace FunctionGateway

/-- What a server publishes about itself. -/
inductive ServerState where
  | idle
  | starting
  | serving
  | draining
  | stopped
deriving DecidableEq

def ServerState.name : ServerState → String
  | idle => "Idle"
  | starting => "Starting"
  | serving => "Serving"
  | draining => "Draining"
  | stopped => "Stopped"

inductive DrainEnd where
  | finished
  | timedOut
deriving DecidableEq

/-- How far the accept loop is. -/
inductive LoopStage where
  /-- There is no loop yet. -/
  | unborn
  /-- The port could not be bound, or the address it is bound to could not be read. -/
  | refused
  /-- The port is bound, and serving is not published yet. -/
  | bound
  /-- Between two turns. -/
  | waiting
  /-- In a turn that has found no reason to leave. -/
  | accepting
  /-- Left for good, with the listener still open. -/
  | leaving
  /-- The listener is closed, and draining is not published yet. -/
  | closed
  | draining
  /-- The drain is over, and the end is not published yet. -/
  | drained (result : DrainEnd)
  | ended (result : DrainEnd)
deriving DecidableEq

/-- What the owner has done with the handle of a running server. -/
inductive HandleUse where
  | none
  | held
  | awaiting
  | returned (result : DrainEnd)
  | dropped
deriving DecidableEq

structure Lifecycle where
  /-- The published states, oldest first. -/
  published : List ServerState := []
  stage : LoopStage := .unborn
  handle : HandleUse := .none
  listening : Bool := false
  /-- Connections made by clients and not accepted yet. -/
  queued : Nat := 0
  /-- Connections accepted and not finished yet. -/
  connections : Nat := 0
deriving DecidableEq

inductive LifeEvent where
  | create
  | bindRoutes
  | bindPort (free : Bool)
  /-- The address of the bound port cannot be read. -/
  | loseAddress
  | publishServing
  | connect
  | beginTurn
  | accept
  /-- A turn ends without a connection: there is none, or accepting one has failed. -/
  | pass
  | finish
  | requestShutdown
  | dropHandle
  | closeListener
  | publishDraining
  | drainEnds (result : DrainEnd)
  | publishStopped
  | shutdownReturns
deriving DecidableEq

namespace Lifecycle

def new : Lifecycle := {}

/-- The state a watcher sees. -/
def state? (life : Lifecycle) : Option ServerState :=
  life.published.getLast?

def publish (life : Lifecycle) (state : ServerState) : Lifecycle :=
  { life with published := life.published ++ [state] }

/-- Whether the owner has given the loop a reason to leave. -/
def isTriggered (life : Lifecycle) : Bool :=
  match life.handle with
  | .awaiting => true
  | .dropped => true
  | _ => false

/-- Begin a turn of the accept loop: leave for good if there is a reason to. -/
def beginTurn (life : Lifecycle) : Lifecycle :=
  if life.isTriggered then { life with stage := .leaving }
  else { life with stage := .accepting }

/-- Accept the connection that has waited longest, which ends the turn. -/
def accept? (life : Lifecycle) : Option Lifecycle :=
  match life.queued with
  | 0 => none
  | others + 1 =>
      some { life with
        stage := .waiting
        queued := others
        connections := life.connections + 1 }

/-- The next moment after an event, if the event is possible. -/
def step (life : Lifecycle) : LifeEvent → Option Lifecycle
  | .create => if life.published = [] then some (life.publish .idle) else none
  | .bindRoutes => if life.state? = some .idle then some (life.publish .starting) else none
  | .bindPort free =>
      if life.state? = some .starting ∧ life.stage = .unborn then
        if free then some { life with stage := .bound, listening := true }
        else some { life with stage := .refused }
      else
        none
  | .loseAddress =>
      if life.stage = .bound then
        some { life with stage := .refused, listening := false, queued := 0 }
      else
        none
  | .publishServing =>
      if life.stage = .bound then
        some { life.publish .serving with stage := .waiting, handle := .held }
      else
        none
  | .connect => if life.listening then some { life with queued := life.queued + 1 } else none
  | .beginTurn => if life.stage = .waiting then some life.beginTurn else none
  | .accept => if life.stage = .accepting then life.accept? else none
  | .pass => if life.stage = .accepting then some { life with stage := .waiting } else none
  | .finish =>
      match life.connections with
      | 0 => none
      | others + 1 => some { life with connections := others }
  | .requestShutdown =>
      if life.handle = .held then some { life with handle := .awaiting } else none
  | .dropHandle =>
      if life.handle = .held ∨ life.handle = .awaiting then some { life with handle := .dropped }
      else none
  | .closeListener =>
      if life.stage = .leaving then
        some { life with stage := .closed, listening := false, queued := 0 }
      else
        none
  | .publishDraining =>
      if life.stage = .closed then some { life.publish .draining with stage := .draining }
      else none
  | .drainEnds result =>
      if life.stage = .draining ∧ (result = .finished → life.connections = 0) then
        some { life with stage := .drained result, connections := 0 }
      else
        none
  | .publishStopped =>
      match life.stage with
      | .drained result => some { life.publish .stopped with stage := .ended result }
      | _ => none
  | .shutdownReturns =>
      match life.stage, life.handle with
      | .ended result, .awaiting => some { life with handle := .returned result }
      | _, _ => none

/-- The moment after several events, if each is possible in its turn. -/
def run (life : Lifecycle) (events : List LifeEvent) : Option Lifecycle :=
  events.foldlM step life

end Lifecycle

end FunctionGateway
