import CanaryRouting.Json.Printer
import CanaryRouting.Service.Api
import CanaryRouting.Service.Http
import CanaryRouting.Service.Metrics

/-!
# The service

The service answers probes, shows its metrics and carries out the operations of the router. A call
whose body is not what it should be is turned away before anything is done, and is not counted.
-/

namespace CanaryRouting

/-- The state of the service. -/
structure Service where
  /-- Whether it is ready to be called. -/
  ready : Bool := false
  /-- The metrics. -/
  metrics : Metrics := {}

/-- What a path leads to. -/
inductive Page where
  /-- The probe whether the service is alive. -/
  | alive
  /-- The probe whether the service is ready. -/
  | ready
  /-- The metrics. -/
  | metrics
  /-- The name of the router. -/
  | type
  /-- An operation. -/
  | call (endpoint : Endpoint)
  deriving DecidableEq, Repr

namespace Page

/-- All pages, with their paths. -/
def all : List (String × Page) :=
  [("/healthz", alive), ("/readyz", ready), ("/metrics", metrics), ("/api/v1/type", type)]
    ++ Endpoint.all.map fun e => ("/api/v1/" ++ e.name, call e)

/-- What the path leads to. -/
def ofPath? (path : String) : Option Page := all.lookup path

end Page

namespace Service

/-- A response that shows a JSON value. -/
def jsonResponse (status : Nat) (body : Json) : Http.Response :=
  { status, contentType := some "application/json", body := body.compress }

/-- A response that turns a call away. -/
def rejection (status : Nat) (reason : String) : Http.Response :=
  { status, contentType := some "text/plain; charset=utf-8", body := reason }

/-- The response for a body that cannot be decoded: a text that is not JSON is a bad request, a
value that is not the right one cannot be processed. -/
def decodeRejection (fault : Fault) : Http.Response :=
  rejection (if fault.isTextual then 400 else 422) fault.message

/-- Shows a page that is only looked at; a call is not such a page. -/
def show? (s : Service) : Page → Option Http.Response
  | .alive => some { status := 200 }
  | .ready => some { status := if s.ready then 200 else 503 }
  | .metrics => some {
      status := 200
      contentType := some "text/plain; version=0.0.4; charset=utf-8"
      body := s.metrics.text }
  | .type => some (jsonResponse 200 (TypeResponse.toJson ⟨Router.typeName⟩))
  | .call _ => none

/-- Carries out a call that takes so many seconds, and counts it. -/
def call (s : Service) (seconds : Float) (endpoint : Endpoint) (rollout : Rollout)
    (operation : Operation) : Program (Http.Response × Service) := do
  let result ← (Router.perform rollout operation).run
  return (jsonResponse (if result.isOk then 200 else 422)
      (OperationResponse.ofResult result).toJson,
    { s with metrics := s.metrics.record endpoint.name result.isOk seconds })

/-- Answers a request that takes so many seconds. -/
def handle (s : Service) (seconds : Float) (r : Http.Request) :
    Program (Http.Response × Service) :=
  match Page.ofPath? r.route with
  | none => pure ({ status := 404 }, s)
  | some (.call endpoint) =>
    if r.method ≠ "POST" then pure ({ status := 405 }, s)
    else if !r.contentType.any Http.isJsonType then
      pure (rejection 415 "the body has to be JSON", s)
    else
      match endpoint.decode.ofText r.body with
      | .error fault => pure (decodeRejection fault, s)
      | .ok (rollout, operation) => s.call seconds endpoint rollout operation
  | some page =>
    match s.show? page with
    | some response =>
      if r.method = "GET" then pure (response, s)
      else if r.method = "HEAD" then pure ({ response with body := "" }, s)
      else pure ({ status := 405 }, s)
    | none => pure ({ status := 405 }, s)

end Service

end CanaryRouting
