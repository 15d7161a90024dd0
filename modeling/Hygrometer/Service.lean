import Hygrometer.Config.Basic
import Hygrometer.Reading
import Hygrometer.Http
import Hygrometer.Metrics.Registry
import Hygrometer.Page
import Hygrometer.Source

/-!
# The service

The service answers requests one after another. What it keeps between them is how often it asked its
source and what it counted; configuration and source stay as they were at the start.

What is done for `GET` at a route is up to a **handler**, and everything around it is not: which
requests are handled at all, what the others get, what is dropped for `HEAD`, which headers are
sent, and what is counted. So the handler is an argument of all this (`Service.respondWith`), and
the service is the case of its own handlers.

## Main definitions

* `Service.start` – the service of a valid configuration, with the source that it selects.
* `Service.handle` – the service's own handlers.
* `Service.respondWith` – the answer to any request by some handlers, which is then counted.
* `Service.respond` – the answer of the service.
-/

namespace Hygrometer

open Http

/-- When a request is answered, and how long that takes. -/
structure Moment where
  /-- Milliseconds since 1970. -/
  now : UInt64
  /-- How long the answer takes. -/
  elapsed : Metrics.Duration

/-- The service. -/
structure Service where
  /-- The configuration. -/
  config : Config
  /-- The source of readings. -/
  source : Source
  /-- How often the source was asked. -/
  asked : Nat := 0
  /-- What was counted. -/
  metrics : Metrics := {}

/-- What is done for `GET` at a route. -/
abbrev Handler := Service → Route → UInt64 → Response × Service

namespace Service

/-- The service of a configuration, which must be valid. -/
def start (config : Config) : Except Invalid Service := do
  config.validate
  pure { config, source := .ofConfig config.source }

/-- Ask the source for the latest reading. A failure is counted. -/
def latest (s : Service) (now : UInt64) : Response × Service :=
  let asked := { s with asked := s.asked + 1 }
  match s.source.answer s.asked now with
  | .ok reading => (.ofJson 200 reading.toJson, asked)
  | .error failure =>
    (.ofFailure failure,
      { asked with metrics := s.metrics.countSourceError s.source.label failure.kind.code })

/-- The answer to `GET` at a route. -/
def handle (s : Service) (route : Route) (now : UInt64) : Response × Service :=
  match route with
  | .page => (.ofBody 200 "text/html; charset=utf-8" (Page.render s.config.page), s)
  | .health => (.ofJson 200 (Health.alive s.config.server.serviceName now).toJson, s)
  | .latest => s.latest now
  | .metrics => (.ofBody 200 "text/plain; version=0.0.4" s.metrics.text, s)

/-- The answer to a method other than `OPTIONS`. `HEAD` does what `GET` does and drops the body. -/
def dispatch (handler : Handler) (s : Service) (method : Method) (route? : Option Route)
    (now : UInt64) : Response × Service :=
  match route?, method with
  | none, _ => (notFound, s)
  | some route, .get => handler s route now
  | some route, .head =>
    let (response, s) := handler s route now
    (response.withoutBody, s)
  | some _, _ => (methodNotAllowed, s)

/-- Count a request that was answered. -/
def count (s : Service) (route? : Option Route) (status : Nat) (elapsed : Metrics.Duration) :
    Service :=
  { s with
    metrics := s.metrics.countRequest (Route.label route?) (Text.numeral status) elapsed }

/-- The answer to a request, with some handlers. Every request but `OPTIONS` is counted once its
answer is known, so the metrics that a request asks for do not count it yet. -/
def respondWith (handler : Handler) (s : Service) (request : Request) (moment : Moment) :
    Response × Service :=
  let route? := Route.ofPath? request.path
  if request.method = .options then (optionsResponse route?, s)
  else
    let (response, s) := s.dispatch handler request.method route? moment.now
    (response.withHeaders sharingHeaders, s.count route? response.status moment.elapsed)

/-- The answer to a request, with the service's own handlers. -/
def respond (s : Service) (request : Request) (moment : Moment) : Response × Service :=
  s.respondWith handle request moment

/-- The answers to requests, each at its moment, and the service afterwards. -/
def run (s : Service) : List (Request × Moment) → List Response × Service
  | [] => ([], s)
  | (request, moment) :: rest =>
    let (response, s) := s.respond request moment
    let (responses, s) := s.run rest
    (response :: responses, s)

end Service
end Hygrometer
