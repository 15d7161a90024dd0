import Hygrometer.Service

/-!
# Runs of the service

What one request can do to a service, said once, and what follows for the requests of a run.

A request is answered in one of four ways (`Request.isHandledAt_or`), and for three of them the
answer is the same whatever the handlers are (`respondWith_of_options`, `respondWith_of_other`,
`respondWith_of_not_route`). In the fourth it is what the handler of the route gives
(`respondWith_of_isHandledAt`). These four are the only lemmas that look into `respondWith`: what is
said of `respond` below and elsewhere is said of the case of the service's own handlers.

A request changes how often the source was asked and what was counted, and nothing else
(`respond_snd_eq`), and so does a run (`run_snd_eq`): configuration and source never change. The
source is asked by `GET` and `HEAD` at `/latest` and by nothing else (`respond_asked`).

The two lists that a run is measured by are **its exchanges**, each request beside its response, and
**the answers of its source**. The answers are numbered through: the k-th request that asks gets the
k-th answer, however many other requests come in between.
-/

namespace Hygrometer

open Http
open Text (numeral)

namespace Http.Request

/-- Whether the request asks the source for a reading. -/
def asksSource (r : Request) : Bool :=
  (r.method = .get || r.method = .head) && r.path = "/latest"

/-- Whether the request is counted in the metrics. -/
def isCounted (r : Request) : Bool := r.method ≠ .options

/-- The label of the request's route in the metrics: the path itself where a route stands. -/
def routeLabel (r : Request) : String :=
  if r.path ∈ ["/", "/health", "/latest", "/metrics"] then r.path else "unmatched"

/-- The label of the route at a path is that of the request. -/
theorem label_ofPath?_path (r : Request) : Route.label (Route.ofPath? r.path) = r.routeLabel := by
  rcases h : Route.ofPath? r.path with - | route
  · have hne : ∀ route ∈ Route.all, route.path ≠ r.path := by
      simpa [Route.ofPath?] using h
    have hmem : r.path ∉ ["/", "/health", "/latest", "/metrics"] := by
      intro hmem
      have hpaths : r.path ∈ Route.all.map Route.path := hmem
      obtain ⟨route, hroute, hpath⟩ := List.mem_map.1 hpaths
      exact hne route hroute hpath
    rw [Route.label, routeLabel, if_neg hmem]
  · have hpath : route.path = r.path := Route.path_of_ofPath?_eq_some h
    rw [Route.label, routeLabel, ← hpath, if_pos]
    cases route <;> decide

/-- The request is answered by the handler of a route. -/
def IsHandledAt (r : Request) (route : Route) : Prop :=
  (r.method = .get ∨ r.method = .head) ∧ r.path = route.path

/-- A request asks the source exactly if it is handled at the route of readings. -/
theorem asksSource_iff (r : Request) : r.asksSource = true ↔ r.IsHandledAt .latest := by
  simp [asksSource, IsHandledAt, Route.path]

/-- No request asks the source without a handler. -/
theorem asksSource_of_not_isHandledAt {r : Request} (h : ∀ route, ¬ r.IsHandledAt route) :
    r.asksSource = false := by
  rw [← Bool.not_eq_true, asksSource_iff]
  exact h .latest

/-- A request is handled at a route, or it is one of three kinds that no handler sees. -/
theorem isHandledAt_or (r : Request) :
    (∃ route, r.IsHandledAt route) ∨ r.method = .options ∨
      (r.method = .other ∧ ∃ route, Route.ofPath? r.path = some route) ∨
      (r.method ≠ .options ∧ Route.ofPath? r.path = none) := by
  rcases hroute : Route.ofPath? r.path with - | route
  · by_cases hoptions : r.method = .options
    · exact .inr (.inl hoptions)
    · exact .inr (.inr (.inr ⟨hoptions, rfl⟩))
  · have hpath : r.path = route.path := (Route.path_of_ofPath?_eq_some hroute).symm
    rcases hmethod : r.method with - | - | - | -
    · exact .inl ⟨route, .inl hmethod, hpath⟩
    · exact .inl ⟨route, .inr hmethod, hpath⟩
    · exact .inr (.inl rfl)
    · exact .inr (.inr (.inl ⟨rfl, route, rfl⟩))

end Http.Request

/-- What is sent of a handler's response. -/
def Http.Response.sentTo (method : Method) (r : Response) : Response :=
  (if method = .head then r.withoutBody else r).withHeaders sharingHeaders

namespace Service

/-! ### One request, whatever the handlers are -/

section

variable (s : Service) (request : Request) (moment : Moment)

/-- `OPTIONS` is answered before anything else is looked at, and not counted. -/
theorem respondWith_of_options (h : request.method = .options) (handler : Handler) :
    s.respondWith handler request moment = (optionsResponse (Route.ofPath? request.path), s) := by
  rw [respondWith, if_pos h]

/-- Where there is no route, it is not found, and counted for none. -/
theorem respondWith_of_not_route (hmethod : request.method ≠ .options)
    (hroute : Route.ofPath? request.path = none) (handler : Handler) :
    s.respondWith handler request moment =
      (notFound.withHeaders sharingHeaders, s.count none 404 moment.elapsed) := by
  rw [respondWith, if_neg hmethod, hroute]
  rfl

/-- A method that no route has is not allowed, and counted for the route. -/
theorem respondWith_of_other (hmethod : request.method = .other) {route : Route}
    (hroute : Route.ofPath? request.path = some route) (handler : Handler) :
    s.respondWith handler request moment =
      (methodNotAllowed.withHeaders sharingHeaders, s.count (some route) 405 moment.elapsed) := by
  rw [respondWith, if_neg (by simp [hmethod]), hroute, hmethod]
  rfl

/-- **What a handler does is what is sent**, apart from the body of an answer to `HEAD`. -/
theorem respondWith_of_isHandledAt {route : Route} (h : request.IsHandledAt route)
    (handler : Handler) :
    s.respondWith handler request moment =
      ((handler s route moment.now).1.sentTo request.method,
        (handler s route moment.now).2.count (some route) (handler s route moment.now).1.status
          moment.elapsed) := by
  obtain ⟨hmethod, hpath⟩ := h
  have hroute : Route.ofPath? request.path = some route := by rw [hpath, Route.ofPath?_path]
  rcases hmethod with hmethod | hmethod
  · rw [respondWith, if_neg (by simp [hmethod]), hroute, hmethod]
    rfl
  · rw [respondWith, if_neg (by simp [hmethod]), hroute, hmethod]
    rfl

end

/-! ### One request -/

/-- What the source answers a request, if the request asks it. -/
def sourceAnswer? (s : Service) (request : Request) (moment : Moment) :
    Option (Except Failure Reading) :=
  if request.asksSource then some (s.source.answer s.asked moment.now) else none

/-- The service once its source has been asked, without the request that asked. -/
def afterAsking (s : Service) (request : Request) (moment : Moment) : Service :=
  match s.sourceAnswer? request moment with
  | none => s
  | some (.ok _) => { s with asked := s.asked + 1 }
  | some (.error f) =>
    { s with
      asked := s.asked + 1
      metrics := s.metrics.countSourceError s.source.label f.kind.code }

/-- A request that does not ask the source leaves the service as it is until it is counted. -/
theorem afterAsking_of_not_asksSource (s : Service) (request : Request) (moment : Moment)
    (h : request.asksSource = false) : s.afterAsking request moment = s := by
  rw [afterAsking, sourceAnswer?, h]
  rfl

/-- A handler changes the service by asking the source, if it does that. -/
theorem handle_snd (s : Service) (request : Request) (moment : Moment) {route : Route}
    (h : request.IsHandledAt route) :
    (s.handle route moment.now).2 = s.afterAsking request moment := by
  have hother (hne : route.path ≠ "/latest") : s.afterAsking request moment = s :=
    s.afterAsking_of_not_asksSource request moment (by simp [Request.asksSource, h.2, hne])
  cases route with
  | latest =>
    rw [handle, latest, afterAsking, sourceAnswer?, if_pos (request.asksSource_iff.2 h)]
    rcases s.source.answer s.asked moment.now with f | reading <;> rfl
  | page => exact (hother (by decide)).symm
  | health => exact (hother (by decide)).symm
  | metrics => exact (hother (by decide)).symm

/-- What is done without a handler changes nothing. -/
theorem dispatch_snd (s : Service) (request : Request) (moment : Moment) :
    (s.dispatch handle request.method (Route.ofPath? request.path) moment.now).2 =
      s.afterAsking request moment := by
  by_cases h : ∃ route, request.IsHandledAt route
  · obtain ⟨route, h⟩ := h
    rw [← s.handle_snd request moment h, h.2, Route.ofPath?_path]
    rcases h.1 with hmethod | hmethod <;> rw [hmethod] <;> rfl
  · rw [s.afterAsking_of_not_asksSource request moment
      (Request.asksSource_of_not_isHandledAt (not_exists.1 h))]
    rcases hroute : Route.ofPath? request.path with - | route
    · rfl
    · have hpath : request.path = route.path := (Route.path_of_ofPath?_eq_some hroute).symm
      rcases hmethod : request.method with - | - | - | -
      · exact absurd ⟨route, .inl hmethod, hpath⟩ h
      · exact absurd ⟨route, .inr hmethod, hpath⟩ h
      · rfl
      · rfl

/-- An `OPTIONS` request leaves the service exactly as it is. -/
theorem respond_snd_of_options (s : Service) (request : Request) (moment : Moment)
    (h : request.method = .options) : (s.respond request moment).2 = s := by
  rw [respond, respondWith_of_options s request moment h]

/-- **What a counted request does**: its source answer is booked, then the request itself, under its
route's label and the status of its response. -/
theorem respond_snd (s : Service) (request : Request) (moment : Moment)
    (h : request.method ≠ .options) :
    (s.respond request moment).2 =
      { s.afterAsking request moment with
        metrics := (s.afterAsking request moment).metrics.countRequest request.routeLabel
          (numeral (s.respond request moment).1.status) moment.elapsed } := by
  rw [← s.dispatch_snd request moment, ← request.label_ofPath?_path, respond, respondWith,
    if_neg h]
  rfl

/-- `GET` and `HEAD` at a route are answered by its handler. -/
theorem respond_fst_of_isHandledAt (s : Service) {request : Request} (moment : Moment)
    {route : Route} (h : request.IsHandledAt route) :
    (s.respond request moment).1 = (s.handle route moment.now).1.sentTo request.method := by
  rw [respond, respondWith_of_isHandledAt s request moment h]

/-- The answer to `GET` at a route. -/
theorem respond_fst_of_get (s : Service) {request : Request} (moment : Moment) {route : Route}
    (hmethod : request.method = .get) (hpath : request.path = route.path) :
    (s.respond request moment).1 =
      (s.handle route moment.now).1.withHeaders sharingHeaders := by
  rw [s.respond_fst_of_isHandledAt moment ⟨.inl hmethod, hpath⟩, hmethod]
  rfl

/-- **A request changes how often the source was asked and what was counted**, and nothing else. -/
theorem respond_snd_eq (s : Service) (request : Request) (moment : Moment) :
    (s.respond request moment).2 =
      { s with
        asked := (s.respond request moment).2.asked
        metrics := (s.respond request moment).2.metrics } := by
  by_cases h : request.method = .options
  · rw [respond_snd_of_options s request moment h]
  · rw [respond_snd s request moment h, afterAsking]
    rcases s.sourceAnswer? request moment with - | - | - <;> rfl

/-- A request leaves the configuration as it was. -/
@[simp] theorem respond_config (s : Service) (request : Request) (moment : Moment) :
    (s.respond request moment).2.config = s.config := by
  rw [respond_snd_eq]

/-- A request leaves the source as it was. -/
@[simp] theorem respond_source (s : Service) (request : Request) (moment : Moment) :
    (s.respond request moment).2.source = s.source := by
  rw [respond_snd_eq]

/-- `OPTIONS` asks nothing. -/
theorem asksSource_of_options {request : Request} (h : request.method = .options) :
    request.asksSource = false := by
  rw [Request.asksSource, h]
  rfl

/-- The source is asked once by each request that asks it, and never otherwise. -/
theorem respond_asked (s : Service) (request : Request) (moment : Moment) :
    (s.respond request moment).2.asked = s.asked + if request.asksSource then 1 else 0 := by
  by_cases h : request.method = .options
  · rw [respond_snd_of_options s request moment h, asksSource_of_options h]
    rfl
  · rw [respond_snd s request moment h, afterAsking, sourceAnswer?]
    cases request.asksSource with
    | false => rfl
    | true => rcases s.source.answer s.asked moment.now with - | - <;> rfl

/-! ### A run of requests -/

/-- The first request is answered first. -/
theorem run_cons (s : Service) (request : Request) (moment : Moment)
    (rest : List (Request × Moment)) :
    s.run ((request, moment) :: rest) =
      ((s.respond request moment).1 :: ((s.respond request moment).2.run rest).1,
        ((s.respond request moment).2.run rest).2) := rfl

/-- A run of a sequence goes on where the run of its front ended. -/
theorem run_append (s : Service) (front back : List (Request × Moment)) :
    s.run (front ++ back) =
      ((s.run front).1 ++ ((s.run front).2.run back).1, ((s.run front).2.run back).2) := by
  induction front generalizing s with
  | nil => rfl
  | cons entry front ih =>
    obtain ⟨request, moment⟩ := entry
    rw [List.cons_append, run_cons, run_cons, ih]
    rfl

/-- There is a response for each request. -/
@[simp] theorem length_run (s : Service) (requests : List (Request × Moment)) :
    (s.run requests).1.length = requests.length := by
  induction requests generalizing s with
  | nil => rfl
  | cons entry rest ih =>
    obtain ⟨request, moment⟩ := entry
    rw [run_cons, List.length_cons, List.length_cons, ih]

/-- **So does a run.** -/
theorem run_snd_eq (s : Service) (requests : List (Request × Moment)) :
    (s.run requests).2 =
      { s with asked := (s.run requests).2.asked, metrics := (s.run requests).2.metrics } := by
  induction requests generalizing s with
  | nil => rfl
  | cons entry rest ih =>
    obtain ⟨request, moment⟩ := entry
    rw [run_cons, ih, respond_config, respond_source]

/-- A run leaves the configuration as it was. -/
@[simp] theorem run_config (s : Service) (requests : List (Request × Moment)) :
    (s.run requests).2.config = s.config := by
  rw [run_snd_eq]

/-- A run leaves the source as it was. -/
@[simp] theorem run_source (s : Service) (requests : List (Request × Moment)) :
    (s.run requests).2.source = s.source := by
  rw [run_snd_eq]

/-- **Each response is given by the service that the requests before it left.** -/
theorem getElem?_run (s : Service) (requests : List (Request × Moment)) (k : Nat) :
    (s.run requests).1[k]? =
      requests[k]?.map fun entry ↦ ((s.run (requests.take k)).2.respond entry.1 entry.2).1 := by
  induction requests generalizing s k with
  | nil => rfl
  | cons entry rest ih =>
    obtain ⟨request, moment⟩ := entry
    cases k with
    | zero => rfl
    | succ k => rw [run_cons, List.getElem?_cons_succ, ih]; rfl

/-- The service that a request of a run meets is the one that the requests before it left. -/
theorem run_take_succ (s : Service) (requests : List (Request × Moment)) {k : Nat}
    {request : Request} {moment : Moment} (h : requests[k]? = some (request, moment)) :
    (s.run (requests.take (k + 1))).2 =
      ((s.run (requests.take k)).2.respond request moment).2 := by
  rw [List.take_add_one, h, Option.toList_some, run_append]
  rfl

/-- The requests of a run, each with its response. -/
def exchanges (s : Service) (requests : List (Request × Moment)) : List (Request × Response) :=
  (requests.map (·.1)).zip (s.run requests).1

/-- The first exchange is that of the first request. -/
theorem exchanges_cons (s : Service) (request : Request) (moment : Moment)
    (rest : List (Request × Moment)) :
    s.exchanges ((request, moment) :: rest) =
      (request, (s.respond request moment).1) ::
        (s.respond request moment).2.exchanges rest := rfl

/-- The answers of the source during a run: the k-th request that asks gets the k-th answer. -/
def sourceAnswers (s : Service) (requests : List (Request × Moment)) :
    List (Except Failure Reading) :=
  (requests.filter (·.1.asksSource)).mapIdx fun k entry ↦
    s.source.answer (s.asked + k) entry.2.now

/-- The first answer is that of the first request, if it asks. -/
theorem sourceAnswers_cons (s : Service) (request : Request) (moment : Moment)
    (rest : List (Request × Moment)) :
    s.sourceAnswers ((request, moment) :: rest) =
      (s.sourceAnswer? request moment).toList ++
        (s.respond request moment).2.sourceAnswers rest := by
  have hasked := s.respond_asked request moment
  cases h : request.asksSource with
  | false =>
    rw [h, if_neg Bool.false_ne_true, Nat.add_zero] at hasked
    rw [sourceAnswers, sourceAnswers, sourceAnswer?, hasked, respond_source, h,
      List.filter_cons_of_neg (by simp [h])]
    rfl
  | true =>
    rw [h, if_pos rfl] at hasked
    rw [sourceAnswers, sourceAnswers, sourceAnswer?, hasked, respond_source, h,
      List.filter_cons_of_pos (by exact h), List.mapIdx_cons]
    simp only [Nat.add_assoc, Nat.add_comm 1]
    rfl

end Service
end Hygrometer
