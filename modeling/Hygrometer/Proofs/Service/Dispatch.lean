import Hygrometer.Proofs.Http.Target
import Hygrometer.Proofs.Service.Isolation

/-!
# Which requests are handled

The service is `respondWith` with its own handlers. What `respondWith` answers without asking them
is the same for all choices of handlers, and that is how the statements here say that no handler
runs: the answer to `OPTIONS`, to another method at a route, and at a path without a route is one
answer for every choice. `GET` and `HEAD` at a route show what its handler does, so that two choices
can be told apart there and nowhere else (`exists_respondWith_ne_iff`).

**Methods are told apart by their names**, letter by letter (`Method.ofName_eq_iff`): a name in
small letters is another method. Paths are compared in the same way (`Route.exists_path_eq_iff`),
after the query and the fragment were cut off.

**The header that opens a response** to pages of any origin is set on the way out of all of these,
and no handler sets it itself (`filter_headers_handle`), so each response has it once
(`filter_headers_respond`). It is there on refusals as well, where a page would otherwise not learn
what was refused.

A response to `HEAD` is the one to `GET` at the same target without its body (`respond_fst_head`).
The handler runs for both, so that what it does to the service is done for both.
-/

namespace Hygrometer

open Http

namespace Http

/-- The header is the one that opens a response to pages of other origins. -/
def Header.isOrigin (h : Header) : Bool := h.1 = "access-control-allow-origin"

/-- The methods that the service knows are those of these names. -/
theorem Method.ofName_eq_iff (name : String) :
    (ofName name = .get ↔ name = "GET") ∧ (ofName name = .head ↔ name = "HEAD") ∧
      (ofName name = .options ↔ name = "OPTIONS") ∧
      (ofName name = .other ↔ name ∉ ["GET", "HEAD", "OPTIONS"]) := by
  by_cases hget : name = "GET"
  · simp [ofName, hget]
  by_cases hhead : name = "HEAD"
  · simp [ofName, hhead]
  by_cases hoptions : name = "OPTIONS"
  · simp [ofName, hoptions]
  simp [ofName, hget, hhead, hoptions]

/-- The paths of the routes. -/
theorem Route.exists_path_eq_iff {path : String} :
    (∃ route : Route, path = route.path) ↔ path ∈ ["/", "/health", "/latest", "/metrics"] := by
  constructor
  · rintro ⟨route, rfl⟩
    cases route <;> simp [Route.path]
  · intro h
    obtain ⟨route, -, hpath⟩ := List.mem_map.1 (show path ∈ Route.all.map Route.path from h)
    exact ⟨route, hpath.symm⟩

end Http

namespace Service

variable (s : Service) (request : Request) (moment : Moment)

/-- **The handlers show** in the answers to `GET` and `HEAD` at a route and in no others. -/
theorem exists_respondWith_ne_iff :
    (∃ handler handler', s.respondWith handler request moment ≠
        s.respondWith handler' request moment) ↔
      ∃ route, request.IsHandledAt route := by
  constructor
  · rintro ⟨handler, handler', hne⟩
    rcases request.isHandledAt_or with h | hoptions | ⟨hother, route, hroute⟩ | ⟨hmethod, hroute⟩
    · exact h
    · rw [respondWith_of_options s request moment hoptions,
        respondWith_of_options s request moment hoptions] at hne
      exact absurd rfl hne
    · rw [respondWith_of_other s request moment hother hroute,
        respondWith_of_other s request moment hother hroute] at hne
      exact absurd rfl hne
    · rw [respondWith_of_not_route s request moment hmethod hroute,
        respondWith_of_not_route s request moment hmethod hroute] at hne
      exact absurd rfl hne
  · rintro ⟨route, h⟩
    refine ⟨fun s _ _ ↦ (⟨200, [], ""⟩, s), fun s _ _ ↦ (⟨500, [], ""⟩, s), fun heq ↦ ?_⟩
    rw [respondWith_of_isHandledAt s request moment h,
      respondWith_of_isHandledAt s request moment h] at heq
    have hstatus := congrArg (·.1.status) heq
    rcases h.1 with hmethod | hmethod <;>
      simp [Response.sentTo, Response.withHeaders, Response.withoutBody, hmethod] at hstatus

/-! ### Headers -/

/-- A handler leaves it to the service to open its response. -/
theorem filter_headers_handle (route : Route) (now : UInt64) :
    (s.handle route now).1.headers.filter Header.isOrigin = [] := by
  cases route with
  | page => rfl
  | health => rfl
  | latest =>
    rw [handle, latest]
    rcases s.source.answer s.asked now with failure | reading <;> rfl
  | metrics => rfl

/-- **Every response is open to pages of any origin**, and says so once. -/
theorem filter_headers_respond :
    (s.respond request moment).1.headers.filter Header.isOrigin = [anyOrigin] := by
  rcases request.isHandledAt_or with ⟨route, h⟩ | hoptions | ⟨hother, route, hroute⟩ |
    ⟨hmethod, hroute⟩
  · have hheaders : (s.respond request moment).1.headers =
        (s.handle route moment.now).1.headers ++ sharingHeaders := by
      rw [s.respond_fst_of_isHandledAt moment h]
      rcases h.1 with hmethod | hmethod <;> rw [hmethod] <;> rfl
    rw [hheaders, List.filter_append, filter_headers_handle]
    decide +kernel
  · rw [respond, respondWith_of_options s request moment hoptions]
    cases Route.ofPath? request.path <;> rfl
  · rw [respond, respondWith_of_other s request moment hother hroute]
    rfl
  · rw [respond, respondWith_of_not_route s request moment hmethod hroute]
    rfl

/-! ### Dispatch -/

/-- `HEAD` gets what `GET` gets, apart from the body. -/
theorem respond_fst_head (target : String) :
    (s.respond ⟨.head, target⟩ moment).1 = (s.respond ⟨.get, target⟩ moment).1.withoutBody := by
  simp only [respond, respondWith, Request.path, reduceCtorEq, if_false]
  cases Route.ofPath? (targetPath target) <;> rfl

/-- **Dispatch.** For every method, every target and every service,

* a handler runs exactly for `GET` and `HEAD` at one of the four paths, and it is that of the path;
* `OPTIONS` is answered with 200 by no handler, and not counted;
* another method at one of the four paths is answered with 405, and any method at another path with
  404, by no handler;
* `HEAD` gets the status and the headers of `GET` and no body;
* every response is open to pages of any origin;
* the path is the one that the target was put together from, whatever query and fragment it has. -/
theorem respond_dispatches (s : Service) (name target : String) (moment : Moment) :
    let request : Request := ⟨.ofName name, target⟩
    let paths := ["/", "/health", "/latest", "/metrics"]
    s.respond request moment = s.respondWith handle request moment ∧
    ((∃ handler handler', s.respondWith handler request moment ≠
        s.respondWith handler' request moment) ↔
      (name = "GET" ∨ name = "HEAD") ∧ request.path ∈ paths) ∧
    (∀ route : Route, name = "GET" ∨ name = "HEAD" → request.path = route.path →
      ∀ handler : Handler, s.respondWith handler request moment =
        ((handler s route moment.now).1.sentTo request.method,
          (handler s route moment.now).2.count (some route) (handler s route moment.now).1.status
            moment.elapsed)) ∧
    (name = "OPTIONS" → ∃ response, response.status = 200 ∧
      ∀ handler, s.respondWith handler request moment = (response, s)) ∧
    (name ∉ ["GET", "HEAD", "OPTIONS"] → ∀ route : Route, request.path = route.path →
      ∃ response, response.status = 405 ∧ ∀ handler, s.respondWith handler request moment =
        (response, s.count (some route) 405 moment.elapsed)) ∧
    (name ≠ "OPTIONS" → request.path ∉ paths →
      ∃ response, response.status = 404 ∧ ∀ handler, s.respondWith handler request moment =
        (response, s.count none 404 moment.elapsed)) ∧
    (s.respond ⟨.head, target⟩ moment).1 = (s.respond ⟨.get, target⟩ moment).1.withoutBody ∧
    (s.respond request moment).1.headers.filter Header.isOrigin = [anyOrigin] ∧
    ∀ uri : Target, uri.IsWritable → target = uri.text → request.path = uri.path := by
  intro request paths
  obtain ⟨hget, hhead, hoptions, hother⟩ := Method.ofName_eq_iff name
  refine ⟨rfl, ?_, ?_, ?_, ?_, ?_,
    s.respond_fst_head moment target, s.filter_headers_respond request moment, ?_⟩
  · rw [exists_respondWith_ne_iff, ← Route.exists_path_eq_iff, ← hget, ← hhead]
    exact ⟨fun ⟨route, hmethod, hpath⟩ ↦ ⟨hmethod, route, hpath⟩,
      fun ⟨hmethod, route, hpath⟩ ↦ ⟨route, hmethod, hpath⟩⟩
  · intro route hmethod hpath handler
    rw [← hget, ← hhead] at hmethod
    exact s.respondWith_of_isHandledAt request moment ⟨hmethod, hpath⟩ handler
  · intro h
    exact ⟨_, rfl, s.respondWith_of_options request moment (hoptions.2 h)⟩
  · intro h route hpath
    have hroute : Route.ofPath? request.path = some route := by rw [hpath, Route.ofPath?_path]
    exact ⟨_, rfl, s.respondWith_of_other request moment (hother.2 h) hroute⟩
  · intro h hpath
    -- A path that has a route is one of the four.
    have hroute : Route.ofPath? request.path = none := by
      rcases hroute : Route.ofPath? request.path with - | route
      · rfl
      · have hserved := (Route.path_of_ofPath?_eq_some hroute).symm
        exact absurd (Route.exists_path_eq_iff.1 ⟨route, hserved⟩) hpath
    exact ⟨_, rfl, s.respondWith_of_not_route request moment (fun heq ↦ h (hoptions.1 heq)) hroute⟩
  · intro uri huri htarget
    rw [Request.path, show request.target = uri.text from htarget, Target.targetPath_text huri]

/-- A source that fails, asked by `HEAD` at a whole address, and a method in small letters. -/
theorem respond_dispatches_busy_head :
    let s : Service := { config := {}, source := flakySource }
    let response := (s.respond ⟨.ofName "HEAD", "http://board/latest?x#y"⟩ ⟨5, ⟨0⟩⟩).1
    response.status = 503 ∧ response.body = "" ∧
    response.headers.filter Header.isOrigin = [anyOrigin] ∧
    ∃ response, response.status = 405 ∧ ∀ handler,
      (s.respondWith handler ⟨.ofName "get", "/latest?x"⟩ ⟨5, ⟨0⟩⟩).1 = response := by
  intro s response
  obtain ⟨hrespond, -, hhandled, -, -, -, -, horigin, hpath⟩ :=
    respond_dispatches s "HEAD" "http://board/latest?x#y" ⟨5, ⟨0⟩⟩
  have hfound := hpath (.absolute "http" "board" "/latest" (some "x") (some "y"))
    (by simp [Target.IsWritable, Target.IsAuthority, Target.IsPath, endsPath]) (by decide +kernel)
  have hresponse : response = (s.handle .latest 5).1.sentTo .head := by
    rw [show response = _ from congrArg Prod.fst (hrespond.trans
      (hhandled .latest (.inr rfl) hfound handle))]
    rfl
  obtain ⟨-, -, -, -, hrefused, -⟩ := respond_dispatches s "get" "/latest?x" ⟨5, ⟨0⟩⟩
  obtain ⟨refusal, hstatus, hall⟩ := hrefused (by decide) .latest (by decide +kernel)
  refine ⟨?_, ?_, horigin, refusal, hstatus, fun handler ↦ by rw [hall handler]⟩
  · rw [hresponse]
    decide +kernel
  · rw [hresponse]
    rfl

end Service
end Hygrometer
