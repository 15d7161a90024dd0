import Hygrometer.Failure
import Hygrometer.Frame
import Hygrometer.Reading
import Hygrometer.Session
import Hygrometer.Text.Basic

/-!
# Acquisition

One reading from the hardware: trigger a measurement, read its frame back, sample the light sensor.
The first step that fails ends the acquisition with its failure.

The light sensor is a photoresistor on one of the board's four analogue inputs, pins 26 to 29, which
are sampled with twelve bits. A pin without an input is never sampled.

## Main definitions

* `Light.input?`, `Light.check` – the analogue input of a pin, and the samples that are accepted.
* `Acquisition.measure`, `Acquisition.light` – one measurement of each sensor.
* `Acquisition.acquire` – a whole reading.
-/

namespace Hygrometer.Light

/-! ### The light sensor -/

/-- The pin of the light sensor, unless configured otherwise. -/
def defaultPin : UInt8 := 26

/-- The first pin with an analogue input. -/
def firstPin : UInt8 := 26

/-- The last pin with an analogue input. -/
def lastPin : UInt8 := 29

/-- The greatest sample of twelve bits. -/
def maxSample : UInt16 := 0x0FFF

/-- The analogue input of a pin, if it has one. -/
def input? (pin : UInt8) : Option UInt8 :=
  if firstPin ≤ pin ∧ pin ≤ lastPin then some (pin - firstPin) else none

/-- A sample that has more than twelve bits. -/
structure OverRange where
  /-- The sample. -/
  sample : UInt16
deriving DecidableEq

/-- The failure that a client sees. -/
def OverRange.toFailure (fault : OverRange) : Failure :=
  ⟨.malformedPayload, "adc sample " ++ Text.numeral fault.sample.toNat ++ " exceeds 12 bits"⟩

/-- Accept a sample of at most twelve bits. -/
def check (sample : UInt16) : Except OverRange UInt16 :=
  if maxSample < sample then .error ⟨sample⟩ else .ok sample

end Hygrometer.Light

namespace Hygrometer.Acquisition

/-! ### Sessions with the hardware -/

variable {σ : Type}

/-- A result of the library as a result of a session. -/
def lift {ε α : Type} (toFailure : ε → Failure) (result : Except ε α) : Session σ α :=
  .ofExcept (result.mapError toFailure)

/-- Trigger a measurement at an address and decode the frame that is read back. -/
def measure (hw : Hardware σ) (address : UInt8) : Session σ Sample := do
  .write hw address Frame.trigger
  let octets ← .read hw address Frame.size
  lift Frame.Fault.toFailure (Frame.decode octets)

/-- The light sensor's sample. A pin without an analogue input gives zero, and no call. -/
def light (hw : Hardware σ) (pin : UInt8) : Session σ UInt16 := do
  if (Light.input? pin).isNone then
    pure 0
  else
    lift Light.OverRange.toFailure (Light.check (← .sample hw pin))

/-- The reading that a sample of the climate and one of the light make. -/
def reading (sample : Sample) (light : UInt16) (now : UInt64) : Reading where
  humidity := sample.humidity
  temperatureC := sample.temperatureC
  temperatureF := fahrenheit sample.temperatureC
  light := .ofNat light.toNat
  timestamp := now

/-- Acquire a reading, stamped with the time `now`. -/
def acquire (hw : Hardware σ) (address pin : UInt8) (now : UInt64) : Session σ Reading := do
  let sample ← measure hw address
  let light ← light hw pin
  pure (reading sample light now)

end Hygrometer.Acquisition
