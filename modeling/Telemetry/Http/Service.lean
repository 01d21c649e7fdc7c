import Telemetry.Host
import Telemetry.Http.Form
import Telemetry.Http.Page
import Telemetry.Http.Target
import Telemetry.Series.Exposition

/-!
The service: answers to requests for metrics, health, readiness, status and the text report.

A request never stops at a fault of the domain: it is answered with status 500, and a log record
says what could not be done.
-/

namespace Telemetry

namespace Http

structure DomainStatus where
  name : String
  running : Bool
  /-- Milliseconds. -/
  interval : Nat
  zones : Nat
  values : Nat

structure ReplayStatus where
  running : Bool
  position : Nat
  total : Nat
  progress : Binary64
  dataset : DatasetInfo

structure Status where
  version : String
  domain : DomainStatus
  replay : Option ReplayStatus

inductive Body where
  | text (text : String)
  | status (status : Status)

structure Response where
  code : Nat
  contentType : String
  body : Body

def plainType : String := "text/plain; charset=utf-8"

def pageType : String := "text/html; charset=utf-8"

def jsonType : String := "application/json"

def plain (code : Nat) (text : String) : Response := ⟨code, plainType, .text text⟩

def bare (code : Nat) : Response := ⟨code, "", .text ""⟩

def version : String := "0.1.0"

def failureMessage : Failure → String
  | .fault f => f.message
  | .refused r => r.message

def complain (what : String) (e : Failure) (h : Host) : Host :=
  { h with shared := h.shared.log .error s!"{what}: {failureMessage e}" }

/-- Everything in the first registry; the request itself is counted first. -/
def metrics (h : Host) : Response × Host :=
  let h := { h with shared := h.selfMetrics.countScrape h.shared }
  (plain 200 (Series.exposition (h.shared.gather 0)), h)

def ready (d : Domain StockDriver) (h : Host) : Response × Host :=
  match (d.isRunning h.shared).outcome with
  | .ok true => (plain 200 "Ready", h)
  | .ok false => (plain 503 "Not ready", h)
  | .error e => (plain 500 "Not ready", complain "Readiness check failed" e h)

def domainStatus (d : Domain StockDriver) (h : Host) : Outcome DomainStatus := do
  let running ← (d.isRunning h.shared).outcome
  let zones ← (d.handles h.shared).outcome
  let values ← (d.numberOfValues h.shared).outcome
  .ok ⟨d.name, running, d.interval, zones.length, values⟩

def progress (position total : Nat) : Binary64 :=
  if total = 0 then .zero false
  else ((Binary64.ofNat position).div (.ofNat total)).mul (.ofNat 100)

def replayStatus (e : Replay.Engine) : ReplayStatus :=
  ⟨e.running, e.position, e.total, progress e.position e.total, e.dataset.info⟩

def status (d : Domain StockDriver) (h : Host) : Response × Host :=
  match domainStatus d h with
  | .ok domain => (⟨200, jsonType, .status ⟨version, domain, h.replay.map replayStatus⟩⟩, h)
  | .error e => (bare 500, complain "Failed to read domain status" e h)

def joinError : String := "<join error>"

def stats (query : String) (d : Domain StockDriver) (h : Host) : Response × Host :=
  match StatsQuery.ofQuery? query with
  | .error e => (plain 400 e.message, h)
  | .ok q =>
    match q.filter with
    | .error message => (plain 400 message, h)
    | .ok filter =>
      match d.report filter q.options h.shared with
      | .ok text => (plain 200 text, h)
      | .error e => (plain 500 joinError, complain "Failed to render report" e h)

def answer (target : Target) (d : Domain StockDriver) (h : Host) : Response × Host :=
  match target.path with
  | "/" => (⟨200, pageType, .text page⟩, h)
  | "/metrics" => metrics h
  | "/health" => (plain 200 "OK", h)
  | "/ready" => ready d h
  | "/status" => status d h
  | "/stats" => stats target.query d h
  | _ => (bare 404, h)

end Http

end Telemetry
