import Hygrometer.Acquisition
import Hygrometer.Config.Basic
import Hygrometer.Session

/-!
# Sources of readings

Where the service takes its readings from. A source answers each time it is asked, with a reading or
a failure; its answer may depend on how often it was asked before and on the time.

One source is wired to a simulated board, hardware that needs no wires: a climate sensor that is
always ready and reports fixed conditions, and a converter that gives the same sample at every pin.
It has no state, so any number of sessions may share it.

## Main definitions

* `Board` – the simulated board, and `Board.hardware` – the calls it answers.
* `Device` – sensors wired to hardware, which acquire a reading whenever they are asked.
* `Source` – anything that answers, under the label it has in metrics.
* `Source.ofConfig` – the source that a configuration selects.
-/

namespace Hygrometer

/-! ### The simulated board -/

/-- A simulated board. -/
structure Board where
  /-- The bus address that its climate sensor answers at. -/
  address : UInt8
  /-- The frame that every read gives. -/
  frame : List UInt8
  /-- The sample that every pin gives. -/
  lightRaw : UInt16
deriving DecidableEq

namespace Board

/-- Why the board refuses a call. -/
inductive Fault where
  /-- Nothing answers at the address. -/
  | noDevice (address : UInt8)
  /-- The sensor was sent another command than the one that triggers a measurement. -/
  | unknownCommand (octets : List UInt8)
deriving DecidableEq

/-- The failure that a client sees. -/
def Fault.toFailure : Fault → Failure
  | noDevice address =>
    ⟨.sensorUnavailable, "no device at i2c address 0x" ++ Text.hexByte address⟩
  | unknownCommand octets =>
    ⟨.internal, "simulated dht20 only understands the trigger command, got [" ++
      ", ".intercalate (octets.map Text.hexByte) ++ "]"⟩

/-- The board that reports given conditions. A light sample of more than twelve bits becomes the
greatest one. -/
def ofAmbient (address : UInt8) (ambient : Ambient) : Board where
  address := address
  frame := Frame.encode ambient.humidity ambient.temperatureC
  lightRaw := min ambient.lightRaw Light.maxSample

/-- The board takes a write: only the trigger, and only at its address. -/
def write (b : Board) (address : UInt8) (octets : List UInt8) : Except Fault Unit :=
  if address ≠ b.address then .error (.noDevice address)
  else if octets ≠ Frame.trigger then .error (.unknownCommand octets)
  else .ok ()

/-- The board answers a read at its address with the front of its frame, which needs no trigger. -/
def read (b : Board) (address : UInt8) (count : Nat) : Except Fault (List UInt8) :=
  if address ≠ b.address then .error (.noDevice address) else .ok (b.frame.take count)

/-- The board takes the trigger at its address. -/
@[simp] theorem write_trigger (b : Board) : b.write b.address Frame.trigger = .ok () := by
  simp [write]

/-- The board gives its frame at its address. -/
@[simp] theorem read_address (b : Board) (count : Nat) :
    b.read b.address count = .ok (b.frame.take count) := by
  simp [read]

/-- The board as hardware. -/
def hardware (b : Board) : Hardware Unit where
  write address octets _ := ((b.write address octets).mapError (·.toFailure), ())
  read address count _ := ((b.read address count).mapError (·.toFailure), ())
  sample _ _ := (.ok b.lightRaw, ())

end Board

/-! ### Sources -/

/-- Sensors wired to hardware. -/
structure Device (σ : Type) where
  /-- The label in metrics. -/
  label : String := "device"
  /-- The hardware. -/
  hardware : Hardware σ
  /-- The bus address of the climate sensor. -/
  address : UInt8
  /-- The pin of the light sensor. -/
  lightPin : UInt8

/-- Acquire a reading. -/
def Device.latest {σ : Type} (d : Device σ) (now : UInt64) : Session σ Reading :=
  Acquisition.acquire d.hardware d.address d.lightPin now

/-- A source of readings. -/
structure Source where
  /-- The label in metrics. -/
  label : String
  /-- The answer after a number of earlier answers, at a time in milliseconds since 1970. -/
  answer : Nat → UInt64 → Except Failure Reading

namespace Source

/-- The source without sensors: every measurement is zero. -/
def stub : Source where
  label := SourceKind.stub.name
  answer _ now := .ok (.zeroed now)

/-- A device on hardware without state, as a source. -/
def ofDevice (d : Device Unit) : Source where
  label := d.label
  answer _ now := ((d.latest now).run ()).result

/-- The source on a simulated board, whose sensors are where the configuration expects them. -/
def simulated (c : SourceConfig) : Source :=
  ofDevice {
    label := SourceKind.simulated.name
    hardware := (Board.ofAmbient c.address c.ambient).hardware
    address := c.address
    lightPin := c.lightPin }

/-- The source that a configuration selects. -/
def ofConfig (c : SourceConfig) : Source :=
  match c.kind with
  | .stub => stub
  | .simulated => simulated c

end Source
end Hygrometer
