import FunctionGateway.Metrics.Ledger

/-!
# Text exposition of the ledger

Families are written in the order of their names, the series of a family in the
order of their label values, and a family without series is left out. Of the
histogram of request durations only the number of observations is a function of
the ledger; its sum and its buckets depend on measured time and are not written.
-/

namespace FunctionGateway.Metrics

open FunctionGateway.Http
open FunctionGateway.Text

/-- Escape a label value: backslash, newline and double quote. -/
def escapeLabel (value : String) : String :=
  String.ofList (value.toList.flatMap fun letter =>
    if letter = '\\' then ['\\', '\\']
    else if letter = '\n' then ['\\', 'n']
    else if letter = '"' then ['\\', '"']
    else [letter])

/-- One line: the metric, its labels and its value. -/
def sampleLine (metric : String) (labels : List (String × String)) (value : Int) : String :=
  let pairs := labels.map fun (name, text) => name ++ "=\"" ++ escapeLabel text ++ "\""
  metric ++ "\x7b" ++ String.intercalate "," pairs ++ "\x7d " ++ toString value

def Observation.labels (observation : Observation) : List (String × String) :=
  [("code", toString observation.status.code), ("method", observation.method),
    ("path", observation.template)]

/-- Series are ordered by their label values. -/
def Observation.atMost (first second : Observation) : Bool :=
  let code := toString first.status.code
  let other := toString second.status.code
  code < other || (code == other &&
    (first.method < second.method || (first.method == second.method &&
      first.template ≤ second.template)))

/-- The counted series, each once. -/
def Ledger.series (ledger : Ledger) : List Observation :=
  ledger.observations.eraseDups.mergeSort Observation.atMost

/-- The gauges in the order of their templates. -/
def Ledger.sortedGauges (ledger : Ledger) : List (String × Int) :=
  ledger.gauges.mergeSort fun first second => first.1 ≤ second.1

/-- A family: two comment lines and its samples, or nothing without samples. -/
def family (name help kind : String) (samples : List String) : List String :=
  if samples.isEmpty then
    []
  else
    ("# HELP " ++ name ++ " " ++ help) :: ("# TYPE " ++ name ++ " " ++ kind) :: samples

def Ledger.lines (ledger : Ledger) : List String :=
  let counted (metric : String) := ledger.series.map fun observation =>
    sampleLine metric observation.labels (ledger.count observation)
  family "http_request_duration_seconds" "Seconds spent serving HTTP requests" "histogram"
      (counted "http_request_duration_seconds_count") ++
    family "http_requests_in_flight" "Number of HTTP requests currently being served" "gauge"
      (ledger.sortedGauges.map fun (template, value) =>
        sampleLine "http_requests_in_flight" [("path", template)] value) ++
    family "http_requests_total" "Total number of HTTP requests" "counter"
      (counted "http_requests_total")

def expositionType : FieldValue :=
  ⟨encodeUtf8 "text/plain; version=0.0.4", by decide⟩

/-- The exposition as a response body, one line feed behind each line. -/
def Ledger.text (ledger : Ledger) : String :=
  String.join (ledger.lines.map (· ++ "\n"))

def Ledger.exposition (ledger : Ledger) : Response :=
  Draft.bytes {} expositionType (encodeUtf8 ledger.text)

end FunctionGateway.Metrics
