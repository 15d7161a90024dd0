import Hygrometer.Failure
import Hygrometer.Json.Record

/-!
# Requests and responses

As much of a request and of a response as the service looks at and decides: its answer does not
depend on a request's headers or body.

A request is a method and a target, both as they were sent. Methods are told apart by their names,
and all but three are alike to the service. A response has a status, headers in their order, and a
body that is a text. A status is a number of three digits; a code that is none is sent as that of an
internal error (`statusOf`), which no kind of failure needs (`statusOf_status`).

**Routes** are the four paths that the service answers. A path must match exactly: nothing is
decoded or normalised, and a slash at the end makes another path. The path that a request is about
is taken from its target, which is a path with a query, a whole address, an asterisk, or a bare
authority, which has no path.

**Other origins.** Every response opens itself to pages of any origin, and `OPTIONS` at any path is
answered without looking further.

## Main definitions

* `Request`, `Response` – what comes in and what goes out, and `Response.ofFailure` – what a client
  is sent for a failure.
* `targetPath` – the path of a target.
* `Route.ofPath?` – the route of a path.
* `sharingHeaders`, `optionsResponse` – what opens a response to other origins.
-/

namespace Hygrometer.Http

/-! ### Messages -/

/-- The methods that the service tells apart. Their names are written in capital letters; the same
name in other letters is another method. -/
inductive Method where
  /-- Ask for a representation. -/
  | get
  /-- Ask for what comes with a representation. -/
  | head
  /-- Ask what is allowed. -/
  | options
  /-- Any other method. -/
  | other
deriving DecidableEq, Repr

/-- The method of a name. -/
def Method.ofName (name : String) : Method :=
  if name = "GET" then get
  else if name = "HEAD" then head
  else if name = "OPTIONS" then options
  else other

/-- A request. -/
structure Request where
  /-- The method. -/
  method : Method
  /-- The target, as it was sent. -/
  target : String
deriving DecidableEq

/-- A header: its name in small letters and its value. -/
abbrev Header := String × String

/-- Whether a code is one that a status may have: a number of three digits. -/
def isStatus (code : Nat) : Bool := 100 ≤ code && code < 1000

/-- A code as a status. A code that is none becomes the status of an internal error. -/
def statusOf (code : Nat) : Nat := if isStatus code then code else 500

/-- The code of each failure is a status. -/
@[simp] theorem statusOf_status (kind : FailureKind) : statusOf kind.status = kind.status := by
  cases kind <;> rfl

/-- A response. -/
structure Response where
  /-- The status. -/
  status : Nat
  /-- The headers, apart from the length of the body. -/
  headers : List Header := []
  /-- The body. -/
  body : String := ""
deriving DecidableEq

namespace Response

/-- A response with a body of some type. -/
def ofBody (status : Nat) (type body : String) : Response :=
  ⟨status, [("content-type", type)], body⟩

/-- A response with a JSON body. -/
def ofJson (status : Nat) (body : String) : Response := .ofBody status "application/json" body

/-- The response that tells a client about a failure. -/
def ofFailure (f : Failure) : Response :=
  .ofJson (statusOf f.kind.status) <|
    Json.object [("code", Json.quote f.kind.code), ("msg", Json.quote f.message), ("ok", "false")]

/-- The response with more headers. -/
def withHeaders (r : Response) (headers : List Header) : Response :=
  { r with headers := r.headers ++ headers }

/-- The response without its body. -/
def withoutBody (r : Response) : Response := { r with body := "" }

end Response

/-! ### Targets -/

/-- Whether a character ends a path. -/
def endsPath (c : Char) : Bool := c = '?' || c = '#'

/-- The text after the first mark that separates a scheme from an authority. -/
def afterScheme? : List Char → Option (List Char)
  | ':' :: '/' :: '/' :: cs => some cs
  | _ :: cs => afterScheme? cs
  | [] => none

/-- The text from the end of an authority on. -/
def afterAuthority (cs : List Char) : List Char :=
  cs.dropWhile fun c ↦ !(c = '/' || endsPath c)

/-- The path at the front of a text. -/
def pathOf (cs : List Char) : String := .ofList (cs.takeWhile (!endsPath ·))

/-- The path of a target, exactly as it stands there. The path of a whole address is a slash at
least. -/
def targetPath (target : String) : String :=
  match target.toList with
  | '/' :: cs => pathOf ('/' :: cs)
  | ['*'] => "*"
  | cs =>
    match afterScheme? cs with
    | none => ""
    | some cs =>
      let path := pathOf (afterAuthority cs)
      if path.isEmpty then "/" else path

/-- The path of a request's target. -/
def Request.path (r : Request) : String := targetPath r.target

/-! ### Routes -/

/-- The routes. -/
inductive Route where
  /-- The page. -/
  | page
  /-- The liveness answer. -/
  | health
  /-- The latest reading. -/
  | latest
  /-- The metrics. -/
  | metrics
deriving DecidableEq, Repr

namespace Route

/-- The path of a route. -/
def path : Route → String
  | page => "/"
  | health => "/health"
  | latest => "/latest"
  | metrics => "/metrics"

/-- All routes. -/
def all : List Route := [page, health, latest, metrics]

/-- The route of a path, if it has one. -/
def ofPath? (path : String) : Option Route := all.find? (·.path = path)

/-- A route is found at its path. -/
@[simp] theorem ofPath?_path (route : Route) : ofPath? route.path = some route := by
  cases route <;> simp [ofPath?, all, path]

/-- What is found at a path has that path. -/
theorem path_of_ofPath?_eq_some {path : String} {route : Route}
    (h : ofPath? path = some route) : route.path = path := by
  simpa using List.find?_some h

/-- How a request's route is called in metrics. -/
def label : Option Route → String
  | some route => route.path
  | none => "unmatched"

end Route

/-- The header that names the methods of a route. -/
def allowHeader : Header := ("allow", "GET,HEAD")

/-- The header that lets pages of any origin read the response. -/
def anyOrigin : Header := ("access-control-allow-origin", "*")

/-- The header that names the parts of a request which decide what pages of other origins may do. -/
def varyHeader : Header :=
  ("vary", "origin, access-control-request-method, access-control-request-headers")

/-- The headers of every response except the answer to `OPTIONS`. -/
def sharingHeaders : List Header :=
  [anyOrigin, ("access-control-expose-headers", "*"), varyHeader]

/-- The answer to `OPTIONS`. -/
def optionsResponse (route? : Option Route) : Response where
  status := 200
  headers :=
    [anyOrigin, ("access-control-allow-methods", "*"), ("access-control-allow-headers", "*"),
      varyHeader] ++ (if route?.isSome then [allowHeader] else [])

/-- The answer at a path without a route. -/
def notFound : Response := ⟨404, [], ""⟩

/-- The answer to a method that routes do not have. -/
def methodNotAllowed : Response := ⟨405, [allowHeader], ""⟩

end Hygrometer.Http
