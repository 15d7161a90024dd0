import Hygrometer.Json.Record

/-!
# Readings and health

What the service reports, and its records on the wire: one acquisition of all sensors, and that the
service is well. Celsius and Fahrenheit are fields of their own; the record does not tie them
together.

Both records are read by the names of their fields, which `Reading.shape` and `Health.shape` list in
the order in which they are written.

## Main definitions

* `Reading`, `Reading.toJson`, `Reading.parse` – a reading, written and read.
* `Health`, `Health.toJson`, `Health.parse` – a liveness answer, written and read.
* `fahrenheit` – the other scale of temperature.
-/

namespace Hygrometer

/-- One reading of all sensors. -/
structure Reading where
  /-- Relative humidity in percent. -/
  humidity : Binary64
  /-- Temperature in degrees Celsius. -/
  temperatureC : Binary64
  /-- Temperature in degrees Fahrenheit. -/
  temperatureF : Binary64
  /-- The light sensor's sample. -/
  light : Binary64
  /-- Milliseconds since 1970. -/
  timestamp : UInt64
deriving DecidableEq

/-- Degrees Fahrenheit from degrees Celsius. -/
def fahrenheit (celsius : Binary64) : Binary64 := celsius * 9 / 5 + 32

namespace Reading

/-- The reading of nothing, at a given time. -/
def zeroed (timestamp : UInt64) : Reading := ⟨.zero, .zero, .zero, .zero, timestamp⟩

/-- The record on the wire. -/
def shape : Json.Shape where
  name := "Reading"
  fields := [("humidity", .number), ("temperatureC", .number), ("temperatureF", .number),
    ("photores", .number), ("ts", .natural)]

/-- The text on the wire. -/
def toJson (r : Reading) : String :=
  Json.object [("humidity", Json.writeNumber r.humidity),
    ("temperatureC", Json.writeNumber r.temperatureC),
    ("temperatureF", Json.writeNumber r.temperatureF),
    ("photores", Json.writeNumber r.light),
    ("ts", Text.numeral r.timestamp.toNat)]

/-- Read a text from the wire. -/
def parse (s : String) : Except Json.Refusal Reading := do
  match ← shape.parse s with
  | [.number h, .number c, .number f, .number l, .natural t] => pure ⟨h, c, f, l, t⟩
  | _ => throw .malformed

end Reading

/-! ### Health -/

/-- A liveness answer. -/
structure Health where
  /-- Whether the service is well. -/
  ok : Bool
  /-- The name of the service. -/
  service : String
  /-- Milliseconds since 1970. -/
  timestamp : UInt64
deriving DecidableEq

namespace Health

/-- The answer of a service that runs. -/
def alive (service : String) (timestamp : UInt64) : Health := ⟨true, service, timestamp⟩

/-- The record on the wire. -/
def shape : Json.Shape where
  name := "Health"
  fields := [("ok", .boolean), ("service", .text), ("ts", .natural)]

/-- The text on the wire. -/
def toJson (h : Health) : String :=
  Json.object [("ok", if h.ok then "true" else "false"), ("service", Json.quote h.service),
    ("ts", Text.numeral h.timestamp.toNat)]

/-- Read a text from the wire. -/
def parse (s : String) : Except Json.Refusal Health := do
  match ← shape.parse s with
  | [.boolean ok, .text service, .natural t] => pure ⟨ok, service, t⟩
  | _ => throw .malformed

end Health
end Hygrometer
