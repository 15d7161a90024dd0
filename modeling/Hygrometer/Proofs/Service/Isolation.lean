import Hygrometer.Proofs.Service.Run

/-!
# The source is seen by those who ask it

A request is answered in one of two ways: by what the handler of its route responds, which `HEAD`
gets without a body (`respond_fst_of_isHandledAt`), or else by a response that is the same for every
service at any time (`exists_respond_fst_eq`). What is said of single responses here follows from
these two.

Over a run it means two things. **Those who ask the source** get its answers one by one, in order
(`filter_exchanges`), as the service asks it once for each of them (`asked_run`). **All others** but
those who ask for the metrics get what any service of the same configuration answers, whatever its
source is and whatever it was asked before (`respond_fst_congr`); the clock shows in the `ts` of a
liveness answer and nowhere else (`sameUpToTime_respond`).

**Independence is a statement about two services.** That a response does not depend on the source
cannot be seen from one run, so two are compared, with different sources, counts and metrics behind
them. For a run they may even go through different requests before: the states that they come to
agree in their configuration, which no request changes, and nothing else is looked at.

**A source is a sequence of answers**, and the number of times that it was asked is part of the
state. So a source that fails every other time is a source like any other, and the k-th request that
asks gets the k-th answer whatever stands between them. There is no retry and no memory of an
answer.
-/

namespace Hygrometer

open Http

namespace Http

namespace Request

/-- Whether the request asks for the metrics. -/
def asksMetrics (r : Request) : Bool :=
  (r.method = .get || r.method = .head) && r.path = "/metrics"

theorem asksMetrics_iff_isHandledAt (r : Request) :
    r.asksMetrics = true ↔ r.IsHandledAt .metrics := by
  simp [asksMetrics, IsHandledAt, Route.path]

end Request

namespace Response

/-- The headers of JSON that is sent. -/
def jsonHeaders : List Header := ("content-type", "application/json") :: sharingHeaders

@[simp] theorem sentTo_get_ofJson (status : Nat) (body : String) :
    (ofJson status body).sentTo .get = ⟨status, jsonHeaders, body⟩ := rfl

@[simp] theorem sentTo_head_ofJson (status : Nat) (body : String) :
    (ofJson status body).sentTo .head = ⟨status, jsonHeaders, ""⟩ := rfl

/-- Two responses are the same but for the `ts` of a liveness answer. -/
def SameUpToTime (r r' : Response) : Prop :=
  r = r' ∨ ∃ (health : Health) (timestamp : UInt64), r.body = health.toJson ∧
    r' = { r with body := { health with timestamp := timestamp }.toJson }

theorem SameUpToTime.refl (r : Response) : r.SameUpToTime r := .inl rfl

end Response

end Http

namespace Service

/-! ### One response -/

/-- A request that no handler answers gets the same response from any service at any time. -/
theorem exists_respond_fst_eq {request : Request}
    (h : ∀ route, ¬ request.IsHandledAt route) :
    ∃ response, ∀ (s : Service) (moment : Moment), (s.respond request moment).1 = response := by
  rcases request.isHandledAt_or with hhandled | hoptions | ⟨hother, route, hroute⟩ |
    ⟨hmethod, hroute⟩
  · exact absurd hhandled (not_exists.2 h)
  · exact ⟨_, fun s moment ↦ by rw [respond, respondWith_of_options s request moment hoptions]⟩
  · exact ⟨_, fun s moment ↦ by rw [respond, respondWith_of_other s request moment hother hroute]⟩
  · exact ⟨_, fun s moment ↦ by
      rw [respond, respondWith_of_not_route s request moment hmethod hroute]⟩

/-! ### Those who ask the source -/

/-- The response to a request that the source gave an answer to. -/
def reply (method : Method) (answer : Except Failure Reading) : Response where
  status :=
    match answer with
    | .ok _ => 200
    | .error failure => failure.kind.status
  headers := Response.jsonHeaders
  body :=
    if method = .head then ""
    else
      match answer with
      | .ok reading => reading.toJson
      | .error failure =>
        Json.object [("code", Json.quote failure.kind.code), ("msg", Json.quote failure.message),
          ("ok", "false")]

/-- A request that asks the source gets its next answer. -/
theorem respond_fst_of_asksSource (s : Service) {request : Request} (moment : Moment)
    (h : request.asksSource = true) :
    (s.respond request moment).1 =
      reply request.method (s.source.answer s.asked moment.now) := by
  rw [s.respond_fst_of_isHandledAt moment (request.asksSource_iff.1 h), handle, latest]
  obtain ⟨hmethod, -⟩ := request.asksSource_iff.1 h
  rcases hmethod with hmethod | hmethod <;>
    rcases s.source.answer s.asked moment.now with failure | reading <;>
    · simp only [hmethod, Response.ofFailure, statusOf_status]
      rfl

/-- **The exchanges of those who ask the source** show its answers one by one. -/
theorem filter_exchanges (s : Service) (requests : List (Request × Moment)) :
    (s.exchanges requests).filter (·.1.asksSource) =
      (requests.filter (·.1.asksSource)).mapIdx fun k (request, moment) ↦
        (request, reply request.method (s.source.answer (s.asked + k) moment.now)) := by
  induction requests generalizing s with
  | nil => rfl
  | cons entry rest ih =>
    obtain ⟨request, moment⟩ := entry
    have hasked := s.respond_asked request moment
    rw [exchanges_cons]
    cases h : request.asksSource with
    | false =>
      rw [h, if_neg Bool.false_ne_true, Nat.add_zero] at hasked
      rw [List.filter_cons_of_neg (by simp [h]), List.filter_cons_of_neg (by simp [h]), ih, hasked,
        respond_source]
    | true =>
      rw [h, if_pos rfl] at hasked
      rw [List.filter_cons_of_pos (by exact h), List.filter_cons_of_pos (by exact h), ih, hasked,
        respond_source, List.mapIdx_cons, s.respond_fst_of_asksSource moment h]
      simp only [Nat.add_assoc, Nat.add_comm 1]
      rfl

/-- The source is asked once for each of them. -/
theorem asked_run (s : Service) (requests : List (Request × Moment)) :
    (s.run requests).2.asked = s.asked + requests.countP (·.1.asksSource) := by
  induction requests generalizing s with
  | nil => rfl
  | cons entry rest ih =>
    obtain ⟨request, moment⟩ := entry
    rw [run_cons, ih, respond_asked, List.countP_cons, Nat.add_assoc, Nat.add_comm (List.countP ..)]

/-! ### All others -/

section Plain

variable {request : Request} (hsource : request.asksSource = false)
  (hmetrics : request.asksMetrics = false)

include hsource hmetrics

/-- Only the page and the liveness answer are left. -/
theorem eq_page_or_eq_health {route : Route} (h : request.IsHandledAt route) :
    route = .page ∨ route = .health := by
  cases route with
  | page => exact .inl rfl
  | health => exact .inr rfl
  | latest => exact absurd (request.asksSource_iff.2 h) (by simp [hsource])
  | metrics => exact absurd (request.asksMetrics_iff_isHandledAt.2 h) (by simp [hmetrics])

/-- **The response to such a request** is told by the configuration and the time. -/
theorem respond_fst_congr {s s' : Service} (h : s.config = s'.config) {moment moment' : Moment}
    (hnow : moment.now = moment'.now) :
    (s.respond request moment).1 = (s'.respond request moment').1 := by
  by_cases hhandled : ∃ route, request.IsHandledAt route
  · obtain ⟨route, hroute⟩ := hhandled
    rw [s.respond_fst_of_isHandledAt moment hroute, s'.respond_fst_of_isHandledAt moment' hroute,
      hnow]
    rcases eq_page_or_eq_health hsource hmetrics hroute with rfl | rfl <;>
      rw [handle, handle, h]
  · obtain ⟨response, hresponse⟩ := exists_respond_fst_eq (not_exists.1 hhandled)
    rw [hresponse s moment, hresponse s' moment']

/-- The time shows in a liveness answer and nowhere else. -/
theorem sameUpToTime_respond (s : Service) (moment moment' : Moment) :
    (s.respond request moment).1.SameUpToTime (s.respond request moment').1 := by
  by_cases hhandled : ∃ route, request.IsHandledAt route
  · obtain ⟨route, hroute⟩ := hhandled
    rw [s.respond_fst_of_isHandledAt moment hroute, s.respond_fst_of_isHandledAt moment' hroute]
    rcases eq_page_or_eq_health hsource hmetrics hroute with rfl | rfl
    · exact .refl _
    · rw [handle, handle]
      -- `HEAD` gets no body, so not even the time.
      rcases hroute.1 with hmethod | hmethod
      · rw [hmethod, Response.sentTo_get_ofJson, Response.sentTo_get_ofJson]
        exact .inr ⟨.alive s.config.server.serviceName moment.now, moment'.now, rfl, rfl⟩
      · rw [hmethod, Response.sentTo_head_ofJson, Response.sentTo_head_ofJson]
        exact .refl _
  · obtain ⟨response, hresponse⟩ := exists_respond_fst_eq (not_exists.1 hhandled)
    rw [hresponse s moment, hresponse s moment']
    exact .refl _

end Plain

/-! ### Runs -/

/-- **The source is seen by those who ask it.** Start a service on any configuration and any source
and let it answer any requests. Then

* it has asked the source once for each `GET` or `HEAD` at `/latest`, at that request, and not for
  any other request;
* the k-th of these requests is answered from the k-th answer of the source: with its reading, or
  with the status, the code and the message of its failure;
* a request that is none of these, and no `GET` or `HEAD` at `/metrics` either, is answered up to
  the time as by a service of the same configuration with another source after other requests, and
  exactly so at the same time;
* `GET` at `/health` is answered that the service of the configured name is well. -/
theorem run_isolates_source (config : Config) (source : Source)
    (requests : List (Request × Moment)) :
    let start : Service := { config, source }
    (start.run requests).2.asked = requests.countP (·.1.asksSource) ∧
    (∀ (k : Nat) request moment, requests[k]? = some (request, moment) →
      (start.run (requests.take (k + 1))).2.asked =
        (start.run (requests.take k)).2.asked + if request.asksSource then 1 else 0) ∧
    ((start.exchanges requests).filter (·.1.asksSource) =
      (requests.filter (·.1.asksSource)).mapIdx fun k (request, moment) ↦
        (request, reply request.method (source.answer k moment.now))) ∧
    (∀ source' requests' (k k' : Nat) request moment moment',
      requests[k]? = some (request, moment) → requests'[k']? = some (request, moment') →
      request.asksSource = false → request.asksMetrics = false →
      ∃ response response', (start.run requests).1[k]? = some response ∧
        (run { config, source := source' } requests').1[k']? = some response' ∧
        response.SameUpToTime response' ∧ (moment.now = moment'.now → response = response')) ∧
    (∀ (k : Nat) request moment, requests[k]? = some (request, moment) →
      request.method = .get → request.path = "/health" →
      ∃ response, (start.run requests).1[k]? = some response ∧ response.status = 200 ∧
        response.body = Health.toJson ⟨true, config.server.serviceName, moment.now⟩) := by
  intro start
  refine ⟨?_, ?_, ?_, ?_, ?_⟩
  · rw [asked_run, Nat.zero_add]
  · intro k request moment hk
    rw [run_take_succ start requests hk, respond_asked]
  · rw [filter_exchanges, show start.asked = 0 from rfl]
    simp only [Nat.zero_add]
    rfl
  · intro source' requests' k k' request moment moment' hk hk' hsource hmetrics
    -- Whatever came before, the configurations of the two services are the same.
    have hconfig : (start.run (requests.take k)).2.config =
        (run { config, source := source' } (requests'.take k')).2.config := by
      rw [run_config, run_config]
    refine ⟨_, _, ?_, ?_, ?_, respond_fst_congr hsource hmetrics hconfig⟩
    · rw [getElem?_run, hk, Option.map_some]
    · rw [getElem?_run, hk', Option.map_some]
    · rw [respond_fst_congr hsource hmetrics hconfig rfl]
      exact sameUpToTime_respond hsource hmetrics _ moment moment'
  · intro k request moment hk hmethod hpath
    have hhealth : request.IsHandledAt .health := ⟨.inl hmethod, hpath⟩
    refine ⟨_, by rw [getElem?_run, hk, Option.map_some], ?_⟩
    rw [respond_fst_of_isHandledAt _ moment hhealth, hmethod, handle, Response.sentTo_get_ofJson,
      run_config]
    exact ⟨rfl, rfl⟩

/-- A source that is busy every other time. -/
def flakySource : Source where
  label := "device"
  answer k now := if k % 2 = 0 then .error ⟨.sensorUnavailable, "busy"⟩ else .ok (.zeroed now)

/-- Requests that ask the source by either method, ones at its path that do not, and a look at the
health in between. -/
def flakyRequests : List (Request × Moment) :=
  [(⟨.options, "/latest"⟩, ⟨1, ⟨0⟩⟩), (⟨.head, "/latest?x"⟩, ⟨2, ⟨0⟩⟩),
    (⟨.get, "/health"⟩, ⟨3, ⟨0⟩⟩), (⟨.other, "/latest"⟩, ⟨4, ⟨0⟩⟩), (⟨.get, "/latest"⟩, ⟨5, ⟨0⟩⟩)]

theorem run_isolates_source_flaky :
    let start : Service := { config := {}, source := flakySource }
    let other : Service := { config := {}, source := .stub }
    (start.run flakyRequests).2.asked = 2 ∧
    (start.run (flakyRequests.take 2)).2.asked = (start.run (flakyRequests.take 1)).2.asked + 1 ∧
    ((start.exchanges flakyRequests).filter (·.1.asksSource)).map (fun e ↦ (e.2.status, e.2.body)) =
      [(503, ""), (200, (Reading.zeroed 5).toJson)] ∧
    (∃ response response', (start.run flakyRequests).1[2]? = some response ∧
      (other.run (flakyRequests.drop 2)).1[0]? = some response' ∧ response = response') ∧
    ∃ response, (start.run flakyRequests).1[2]? = some response ∧ response.status = 200 ∧
      response.body = Health.toJson ⟨true, "backend", 3⟩ := by
  intro start other
  obtain ⟨hasked, hstep, hreplies, hplain, hhealth⟩ :=
    run_isolates_source {} flakySource flakyRequests
  refine ⟨?_, ?_, ?_, ?_, ?_⟩
  · rw [hasked]
    decide +kernel
  · rw [hstep 1 ⟨.head, "/latest?x"⟩ ⟨2, ⟨0⟩⟩ rfl, if_pos (by decide +kernel)]
  · rw [hreplies]
    decide +kernel
  · obtain ⟨response, response', hresponse, hresponse', -, heq⟩ :=
      hplain .stub (flakyRequests.drop 2) 2 0 ⟨.get, "/health"⟩ ⟨3, ⟨0⟩⟩ ⟨3, ⟨0⟩⟩ rfl rfl
        (by decide +kernel) (by decide +kernel)
    exact ⟨response, response', hresponse, hresponse', heq rfl⟩
  · exact hhealth 2 ⟨.get, "/health"⟩ ⟨3, ⟨0⟩⟩ rfl rfl (by decide +kernel)

end Service
end Hygrometer
