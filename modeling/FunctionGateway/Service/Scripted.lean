import FunctionGateway.Service.Stack

/-!
# Scripted handlers

A backend whose handlers follow a script: reply at once, reply after a delay that
is fixed or read from a path parameter, or reply once a gate lets them through.
Every call is put on record when it is made. The gate hands out permits, first
come first served; a permit is used up by the job it lets through, and a job that
is abandoned while it holds one passes it on.
-/

namespace FunctionGateway.Scripted

open FunctionGateway.Http
open FunctionGateway.Text

inductive Script where
  | reply (response : Response)
  | delay (length : Duration) (response : Response)
  /-- Wait as many milliseconds as a path parameter says and tell how many they were. -/
  | delayParam (name : String)
  | hold (response : Response)

/-- A scripted handler with the name it is recorded under and the path parameters it
reports. -/
structure Handler where
  id : String
  report : List String
  script : Script

structure Call where
  id : String
  method : String
  path : String
  params : List (String × Option String)
  body : Bytes
deriving DecidableEq

/-- Permits to hand out, and the jobs waiting for one by their tickets. -/
structure Gate where
  permits : Nat := 0
  waiting : List Nat := []
  granted : List Nat := []
  nextTicket : Nat := 0

namespace Gate

/-- Hand one permit to the job that waits longest, or keep it. -/
def releaseOne (gate : Gate) : Gate :=
  match gate.waiting with
  | [] => { gate with permits := gate.permits + 1 }
  | ticket :: others => { gate with waiting := others, granted := gate.granted ++ [ticket] }

def release : Nat → Gate → Gate
  | 0, gate => gate
  | count + 1, gate => release count gate.releaseOne

/-- Come to the gate: go through with a permit, or take a ticket. -/
def enter (gate : Gate) : Option Nat × Gate :=
  match gate.permits with
  | permits + 1 => (none, { gate with permits })
  | 0 =>
      (some gate.nextTicket,
        { gate with
          waiting := gate.waiting ++ [gate.nextTicket]
          nextTicket := gate.nextTicket + 1 })

/-- Whether a ticket has been granted a permit, which is then used up. -/
def redeem (gate : Gate) (ticket : Nat) : Bool × Gate :=
  if gate.granted.contains ticket then
    (true, { gate with granted := gate.granted.erase ticket })
  else
    (false, gate)

/-- Leave the queue; a permit already granted goes to the next in line. -/
def leave (gate : Gate) (ticket : Nat) : Gate :=
  if gate.granted.contains ticket then
    releaseOne { gate with granted := gate.granted.erase ticket }
  else
    { gate with waiting := gate.waiting.erase ticket }

end Gate

/-- The state scripted handlers share: the calls since they were last reported, and
the gate. -/
structure Stage where
  calls : List Call := []
  gate : Gate := {}

inductive Job where
  | reply (response : Response)
  /-- `until?` is set by the first poll. -/
  | delay (length : Duration) (until? : Option Instant) (response : Response)
  | hold (ticket : Option Nat) (response : Response)

/-- Decimal digits below 2 ^ 64, with at most one `+` in front; zero for any other text. -/
def millisOf (text : String) : Nat :=
  let digits :=
    match text.toList with
    | '+' :: rest => rest
    | letters => letters
  if digits.isEmpty || !digits.all Char.isDigit then
    0
  else
    let value := digits.foldl (fun total digit => 10 * total + (digit.toNat - 48)) 0
    if value < Nat.pow 2 64 then value else 0

/-- The job a script makes of a request. -/
def Script.job (request : Request) : Script → Job
  | .reply response => .reply response
  | .delay length response => .delay length none response
  | .delayParam name =>
      let millis := ((request.param? name).map millisOf).getD 0
      .delay (Duration.ofMillis millis) none (Response.text ("slept " ++ toString millis))
  | .hold response => .hold none response

def Handler.record (handler : Handler) (request : Request) : Call :=
  { id := handler.id
    method := request.method.token
    path := request.path
    params := handler.report.map fun name => (name, request.param? name)
    body := request.body }

def start (handler : Handler) (request : Request) (stage : Stage) : Job × Stage :=
  (handler.script.job request, { stage with calls := stage.calls ++ [handler.record request] })

def poll : Job → Instant → Stage → Polled Job × Stage
  | .reply response, _, stage => (.ready response, stage)
  | .delay length until? response, now, stage =>
      let ending := until?.getD (now + length.nanos)
      if ending ≤ now then
        (.ready response, stage)
      else
        (.pending (.delay length (some ending) response), stage)
  | .hold none response, _, stage =>
      match stage.gate.enter with
      | (none, gate) => (.ready response, { stage with gate })
      | (some ticket, gate) => (.pending (.hold (some ticket) response), { stage with gate })
  | .hold (some ticket) response, _, stage =>
      match stage.gate.redeem ticket with
      | (true, gate) => (.ready response, { stage with gate })
      | (false, gate) => (.pending (.hold (some ticket) response), { stage with gate })

def abandon : Job → Stage → Stage
  | .hold (some ticket) _, stage => { stage with gate := stage.gate.leave ticket }
  | _, stage => stage

def wake : Job → Option Instant
  | .delay _ until? _ => until?
  | _ => none

def backend : Backend Handler Job Stage :=
  { start, poll, abandon, wake }

/-- A layer that marks every response: the status stays, the text of the body gets a
mark behind it, and other fields are lost. Bytes of the body that are no text are
replaced. -/
def mark (text : String) : Layer (Service Handler) :=
  Layer.alter fun response =>
    Response.statusText response.status (decodeLossy response.body ++ text)

/-- Take the calls recorded since the last time. -/
def Stage.takeCalls (stage : Stage) : List Call × Stage :=
  (stage.calls, { stage with calls := [] })

end FunctionGateway.Scripted
