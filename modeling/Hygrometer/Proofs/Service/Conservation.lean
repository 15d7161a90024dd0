import Mathlib.Algebra.BigOperators.Group.Finset.Basic
import Mathlib.Algebra.BigOperators.Group.Finset.Piecewise
import Hygrometer.Proofs.Metrics.Registry
import Hygrometer.Proofs.Service.Run

/-!
# Metrics are conserved

After any run the three families of metrics say what happened in it and nothing else. Requests and
durations are read off the exchanges of the run, failures off the answers of its source; the two are
booked by different parts of the service, and neither booking disturbs the other.

**What a run is counted by** is defined without metrics. `countedAt` and `countedWith` count the
exchanges of a run, by the label of their route and by the status that was sent; `failuresOf` counts
the answers of the source, by the code of the failure. Requests for options are not counted at all.

Each family has a **step lemma**, what one request adds to it, and from it a **run lemma** by
induction over the requests, with any service to start from. Histograms differ from counters in one
thing: a histogram is there only from its first observation on. So a count of durations is an
optional number, and the run lemma says when it is absent.

All numbers wrap around at 64 bits, so the run lemmas count in `UInt64`. For a service that starts
afresh they are said again with numbers and `% UInt64.size`, and `run_conserves_metrics` puts these
together. There the families are compared with one another as well: as every exchange has one
status, the requests of a route add up to its durations (`durations_eq_sum_requests`).

The text of the metrics is that of the service before it was asked for (`body_respond_metrics`). A
look at the metrics is counted like any other request, but shows in the next look only.
-/

namespace Hygrometer.Service

open Http
open Metrics (Labels Counters)
open Text (numeral)

/-! ### What a run is counted by -/

/-- Whether an exchange is counted under a route's label. -/
def isAt (route : String) (e : Request × Response) : Bool :=
  e.1.isCounted && e.1.routeLabel == route

/-- How many requests of a run were counted under a route's label. -/
def countedAt (s : Service) (requests : List (Request × Moment)) (route : String) : ℕ :=
  (s.exchanges requests).countP (isAt route)

/-- How many of them had a response of a given status. -/
def countedWith (s : Service) (requests : List (Request × Moment)) (route : String)
    (status : ℕ) : ℕ :=
  (s.exchanges requests).countP fun e ↦ isAt route e && e.2.status == status

/-- Whether an answer of the source is a failure with a given code. -/
def isFailureOf (code : String) : Except Failure Reading → Bool
  | .ok _ => false
  | .error f => f.kind.code == code

/-- How many answers of the source were failures with a given code. -/
def failuresOf (s : Service) (requests : List (Request × Moment)) (code : String) : ℕ :=
  (s.sourceAnswers requests).countP (isFailureOf code)

/-! ### Requests -/

/-- An `OPTIONS` request is counted nowhere. -/
theorem isAt_of_options {request : Request} (h : request.method = .options) (route : String)
    (response : Response) : isAt route (request, response) = false := by
  simp [isAt, Request.isCounted, h]

/-- Any other request is counted under its label. -/
theorem isAt_of_ne_options {request : Request} (h : request.method ≠ .options) (route : String)
    (response : Response) : isAt route (request, response) = (request.routeLabel == route) := by
  simp [isAt, Request.isCounted, h]

/-- The source's answer is booked apart from the requests. -/
theorem requests_afterAsking (s : Service) (request : Request) (moment : Moment) :
    (s.afterAsking request moment).metrics.requests = s.metrics.requests := by
  rw [afterAsking]
  rcases s.sourceAnswer? request moment with - | - | - <;> rfl

theorem requests_respond (s : Service) (request : Request) (moment : Moment) (route : String)
    (status : ℕ) :
    (s.respond request moment).2.metrics.requests.get
        (.ofList [("route", route), ("status", numeral status)]) =
      s.metrics.requests.get (.ofList [("route", route), ("status", numeral status)]) +
        .ofNat (if isAt route (request, (s.respond request moment).1) &&
          (s.respond request moment).1.status == status then 1 else 0) := by
  by_cases h : request.method = .options
  · rw [respond_snd_of_options s request moment h, isAt_of_options h]
    exact (UInt64.add_zero _).symm
  · rw [respond_snd s request moment h, isAt_of_ne_options h, Metrics.requests_countRequest,
      requests_afterAsking]
    simp only [Text.numeral_inj, Bool.and_eq_true, beq_iff_eq]
    split <;> rfl

/-- **The counter of requests** grows by the number of exchanges with its route and status. -/
theorem requests_run (s : Service) (requests : List (Request × Moment)) (route : String)
    (status : ℕ) :
    (s.run requests).2.metrics.requests.get
        (.ofList [("route", route), ("status", numeral status)]) =
      s.metrics.requests.get (.ofList [("route", route), ("status", numeral status)]) +
        .ofNat (s.countedWith requests route status) := by
  induction requests generalizing s with
  | nil => exact (UInt64.add_zero _).symm
  | cons entry rest ih =>
    obtain ⟨request, moment⟩ := entry
    have hcount : s.countedWith ((request, moment) :: rest) route status =
        (s.respond request moment).2.countedWith rest route status +
          if isAt route (request, (s.respond request moment).1) &&
            (s.respond request moment).1.status == status then 1 else 0 := by
      rw [countedWith, exchanges_cons, List.countP_cons]
      rfl
    rw [run_cons, ih, requests_respond, hcount, Nat.add_comm, UInt64.ofNat_add, UInt64.add_assoc]

/-! ### Durations -/

theorem durations_afterAsking (s : Service) (request : Request) (moment : Moment) :
    (s.afterAsking request moment).metrics.durations = s.metrics.durations := by
  rw [afterAsking]
  rcases s.sourceAnswer? request moment with - | - | - <;> rfl

theorem durations_respond (s : Service) (request : Request) (moment : Moment) (route : String) :
    (s.respond request moment).2.metrics.durations.count? (.ofList [("route", route)]) =
      if isAt route (request, (s.respond request moment).1) then
        some ((s.metrics.durations.count? (.ofList [("route", route)])).getD 0 + 1)
      else s.metrics.durations.count? (.ofList [("route", route)]) := by
  by_cases h : request.method = .options
  · rw [respond_snd_of_options s request moment h, isAt_of_options h]
    rfl
  · rw [respond_snd s request moment h, isAt_of_ne_options h, Metrics.durations_countRequest,
      durations_afterAsking]
    simp

/-- **The histogram of a route** is there once an exchange was counted under its label, and its
count grows by the number of those. -/
theorem durations_run (s : Service) (requests : List (Request × Moment)) (route : String) :
    (s.run requests).2.metrics.durations.count? (.ofList [("route", route)]) =
      if s.countedAt requests route = 0 then
        s.metrics.durations.count? (.ofList [("route", route)])
      else
        some ((s.metrics.durations.count? (.ofList [("route", route)])).getD 0 +
          .ofNat (s.countedAt requests route)) := by
  induction requests generalizing s with
  | nil => rfl
  | cons entry rest ih =>
    obtain ⟨request, moment⟩ := entry
    have hcount : s.countedAt ((request, moment) :: rest) route =
        (s.respond request moment).2.countedAt rest route +
          if isAt route (request, (s.respond request moment).1) then 1 else 0 := by
      rw [countedAt, exchanges_cons, List.countP_cons]
      rfl
    rw [run_cons, ih, hcount, durations_respond]
    generalize (s.respond request moment).2.countedAt rest route = n
    cases isAt route (request, (s.respond request moment).1) with
    | false => rfl
    | true =>
      rw [if_pos rfl, if_pos rfl, if_neg (Nat.succ_ne_zero n)]
      -- The rest of the run may be the first to observe this route, or may leave it alone.
      by_cases hn : n = 0
      · subst hn
        rfl
      · rw [if_neg hn, Option.getD_some, UInt64.ofNat_add, UInt64.add_assoc, UInt64.add_comm 1]
        rfl

/-! ### Failures of the source -/

theorem sourceErrors_respond (s : Service) (request : Request) (moment : Moment) (code : String) :
    (s.respond request moment).2.metrics.sourceErrors.get
        (.ofList [("source", s.source.label), ("code", code)]) =
      s.metrics.sourceErrors.get (.ofList [("source", s.source.label), ("code", code)]) +
        .ofNat ((s.sourceAnswer? request moment).toList.countP (isFailureOf code)) := by
  by_cases h : request.method = .options
  · rw [respond_snd_of_options s request moment h, sourceAnswer?, asksSource_of_options h]
    exact (UInt64.add_zero _).symm
  · rw [respond_snd s request moment h, Metrics.sourceErrors_countRequest, afterAsking]
    rcases s.sourceAnswer? request moment with - | f | reading
    · exact (UInt64.add_zero _).symm
    · rw [Option.toList_some, List.countP_singleton, isFailureOf,
        Metrics.sourceErrors_countSourceError]
      by_cases hcode : f.kind.code = code <;> simp [hcode]
    · exact (UInt64.add_zero _).symm

/-- **The counter of failures** grows by the number of the source's answers with its code. -/
theorem sourceErrors_run (s : Service) (requests : List (Request × Moment)) (code : String) :
    (s.run requests).2.metrics.sourceErrors.get
        (.ofList [("source", s.source.label), ("code", code)]) =
      s.metrics.sourceErrors.get (.ofList [("source", s.source.label), ("code", code)]) +
        .ofNat (s.failuresOf requests code) := by
  induction requests generalizing s with
  | nil => exact (UInt64.add_zero _).symm
  | cons entry rest ih =>
    obtain ⟨request, moment⟩ := entry
    have hrest := ih (s.respond request moment).2
    rw [respond_source] at hrest
    rw [run_cons, hrest, sourceErrors_respond, failuresOf, failuresOf, sourceAnswers_cons,
      List.countP_append, UInt64.ofNat_add, UInt64.add_assoc]

/-! ### The families together -/

/-- The exchanges of a route are those of its statuses together. -/
theorem sum_countedWith (s : Service) (requests : List (Request × Moment)) (route : String)
    (statuses : Finset ℕ) (h : ∀ response ∈ (s.run requests).1, response.status ∈ statuses) :
    ∑ status ∈ statuses, s.countedWith requests route status = s.countedAt requests route := by
  have hmem : ∀ e ∈ s.exchanges requests, e.2.status ∈ statuses :=
    fun e he ↦ h e.2 (List.of_mem_zip he).2
  simp only [countedWith, countedAt]
  generalize s.exchanges requests = exchanges at hmem ⊢
  induction exchanges with
  | nil => simp
  | cons e exchanges ih =>
    have hhead : e.2.status ∈ statuses := hmem e List.mem_cons_self
    have htail := ih fun e he ↦ hmem e (List.mem_cons_of_mem _ he)
    simp only [List.countP_cons, Finset.sum_add_distrib, htail]
    congr 1
    cases isAt route e with
    | false => simp
    | true => simp [hhead]

/-- The metrics that a request asks for are those of the requests before it. -/
theorem body_respond_metrics (s : Service) {request : Request} (moment : Moment)
    (hmethod : request.method = .get) (hpath : request.path = Route.metrics.path) :
    (s.respond request moment).1.body = s.metrics.text := by
  rw [s.respond_fst_of_get moment hmethod hpath]
  rfl

section Fresh

variable (config : Config) (source : Source) (requests : List (Request × Moment))

/-- The counter of requests of a service that started afresh. -/
theorem requests_run_fresh (route : String) (status : ℕ) :
    ((run { config, source } requests).2.metrics.requests.get
        (.ofList [("route", route), ("status", numeral status)])).toNat =
      countedWith { config, source } requests route status % UInt64.size := by
  have hrun := requests_run { config, source } requests route status
  rw [show ({ config, source } : Service).metrics.requests.get _ = 0 from rfl,
    UInt64.zero_add] at hrun
  rw [hrun, UInt64.toNat_ofNat']

/-- The histogram of a route of a service that started afresh. -/
theorem durations_run_fresh (route : String) :
    (run { config, source } requests).2.metrics.durations.count? (.ofList [("route", route)]) =
      if countedAt { config, source } requests route = 0 then none
      else some (.ofNat (countedAt { config, source } requests route)) := by
  have hrun := durations_run { config, source } requests route
  rw [show ({ config, source } : Service).metrics.durations.count? _ = none from rfl,
    Option.getD_none, UInt64.zero_add] at hrun
  exact hrun

/-- The histogram of a route has counted what the counters of the route have together. -/
theorem durations_eq_sum_requests (route : String) (statuses : Finset ℕ)
    (h : ∀ response ∈ (run { config, source } requests).1, response.status ∈ statuses) :
    (((run { config, source } requests).2.metrics.durations.count?
        (.ofList [("route", route)])).getD 0).toNat =
      (∑ status ∈ statuses, ((run { config, source } requests).2.metrics.requests.get
        (.ofList [("route", route), ("status", numeral status)])).toNat) % UInt64.size := by
  have hcount : (((run { config, source } requests).2.metrics.durations.count?
      (.ofList [("route", route)])).getD 0).toNat =
        countedAt { config, source } requests route % UInt64.size := by
    rw [durations_run_fresh]
    split
    · next hzero =>
      rw [hzero]
      rfl
    · rw [Option.getD_some, UInt64.toNat_ofNat']
  rw [hcount, ← sum_countedWith _ requests route statuses h, Finset.sum_nat_mod]
  simp only [requests_run_fresh]

/-- The counter of failures of a service that started afresh. -/
theorem sourceErrors_run_fresh (code : String) :
    ((run { config, source } requests).2.metrics.sourceErrors.get
        (.ofList [("source", source.label), ("code", code)])).toNat =
      failuresOf { config, source } requests code % UInt64.size := by
  have hrun := sourceErrors_run { config, source } requests code
  rw [show ({ config, source } : Service).metrics.sourceErrors.get _ = 0 from rfl,
    UInt64.zero_add] at hrun
  rw [hrun, UInt64.toNat_ofNat']

end Fresh

/-- **Conservation of metrics.** Start a service on any configuration and any source and let it
answer any requests. Then, modulo `2 ^ 64`,

* the counter of a route and a status is the number of exchanges with that route and status,
* the histogram of a route has counted the exchanges with that route, is not there if there are
  none, and agrees with the counters of the route summed over all statuses,
* the counter of a code is the number of the source's answers that were failures with that code;

an `OPTIONS` request changes nothing, and `GET` at `/metrics` shows the metrics of the requests
before it. -/
theorem run_conserves_metrics (config : Config) (source : Source)
    (requests : List (Request × Moment)) :
    let start : Service := { config, source }
    let metrics := (start.run requests).2.metrics
    (∀ route status,
      (metrics.requests.get (.ofList [("route", route), ("status", numeral status)])).toNat =
        start.countedWith requests route status % UInt64.size) ∧
    (∀ route, metrics.durations.count? (.ofList [("route", route)]) =
      if start.countedAt requests route = 0 then none
      else some (.ofNat (start.countedAt requests route))) ∧
    (∀ route (statuses : Finset ℕ),
      (∀ response ∈ (start.run requests).1, response.status ∈ statuses) →
      ((metrics.durations.count? (.ofList [("route", route)])).getD 0).toNat =
        (∑ status ∈ statuses, (metrics.requests.get
          (.ofList [("route", route), ("status", numeral status)])).toNat) % UInt64.size) ∧
    (∀ code,
      (metrics.sourceErrors.get (.ofList [("source", source.label), ("code", code)])).toNat =
        start.failuresOf requests code % UInt64.size) ∧
    (∀ (k : ℕ) request moment, requests[k]? = some (request, moment) →
      request.method = .options →
      (start.run (requests.take (k + 1))).2.metrics = (start.run (requests.take k)).2.metrics) ∧
    (∀ (k : ℕ) request moment, requests[k]? = some (request, moment) →
      request.method = .get → request.path = "/metrics" →
      (start.run requests).1[k]?.map (·.body) =
        some (start.run (requests.take k)).2.metrics.text) := by
  intro start metrics
  refine ⟨requests_run_fresh config source requests, durations_run_fresh config source requests,
    durations_eq_sum_requests config source requests,
    sourceErrors_run_fresh config source requests, ?_, ?_⟩
  · intro k request moment hk hoptions
    rw [run_take_succ start requests hk, respond_snd_of_options _ request moment hoptions]
  · intro k request moment hk hmethod hpath
    rw [getElem?_run, hk, Option.map_some, Option.map_some,
      body_respond_metrics _ moment hmethod hpath]

/-- A source that is always busy. -/
def busySource : Source where
  label := "device"
  answer _ _ := .error ⟨.sensorUnavailable, "busy"⟩

/-- A request that asks the source, one that changes nothing, and a look at the metrics. -/
def busyRequests : List (Request × Moment) :=
  [(⟨.head, "/latest?x"⟩, ⟨1, ⟨0⟩⟩), (⟨.options, "/latest"⟩, ⟨2, ⟨0⟩⟩),
    (⟨.get, "/metrics"⟩, ⟨3, ⟨0⟩⟩)]

theorem run_conserves_metrics_busy :
    let start : Service := { config := {}, source := busySource }
    let metrics := (start.run busyRequests).2.metrics
    (metrics.requests.get (.ofList [("route", "/latest"), ("status", numeral 503)])).toNat = 1 ∧
    metrics.durations.count? (.ofList [("route", "/latest")]) = some 1 ∧
    (∀ response ∈ (start.run busyRequests).1, response.status ∈ ({200, 503} : Finset ℕ)) ∧
    (∑ status ∈ ({200, 503} : Finset ℕ), (metrics.requests.get
      (.ofList [("route", "/latest"), ("status", numeral status)])).toNat) % UInt64.size = 1 ∧
    (metrics.sourceErrors.get
      (.ofList [("source", "device"), ("code", "SENSOR_UNAVAILABLE")])).toNat = 1 ∧
    (start.run (busyRequests.take 2)).2.metrics = (start.run (busyRequests.take 1)).2.metrics ∧
    (start.run busyRequests).1[2]?.map (·.body) =
      some (start.run (busyRequests.take 2)).2.metrics.text := by
  intro start metrics
  obtain ⟨hrequests, hdurations, hsum, hfailures, hoptions, hbody⟩ :=
    run_conserves_metrics {} busySource busyRequests
  have hcount : metrics.durations.count? (.ofList [("route", "/latest")]) = some 1 := by
    have hone : start.countedAt busyRequests "/latest" = 1 := by decide +kernel
    have hlatest := hdurations "/latest"
    rw [show Service.countedAt _ busyRequests "/latest" = 1 from hone] at hlatest
    exact hlatest
  have hstatuses : ∀ response ∈ (start.run busyRequests).1,
      response.status ∈ ({200, 503} : Finset ℕ) := by decide +kernel
  refine ⟨?_, hcount, hstatuses, ?_, ?_, ?_, ?_⟩
  · rw [hrequests]
    decide +kernel
  · rw [← hsum "/latest" _ hstatuses, hcount]
    rfl
  · rw [show "device" = busySource.label from rfl, hfailures]
    decide +kernel
  · exact hoptions 1 ⟨.options, "/latest"⟩ ⟨2, ⟨0⟩⟩ rfl rfl
  · exact hbody 2 ⟨.get, "/metrics"⟩ ⟨3, ⟨0⟩⟩ rfl rfl (by decide +kernel)

end Hygrometer.Service
