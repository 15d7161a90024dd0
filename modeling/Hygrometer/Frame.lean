import Hygrometer.Binary64.Arithmetic
import Hygrometer.Failure
import Hygrometer.Text.Basic

/-!
# Measurement frames

The DHT20 answers a measurement with seven octets: a status, two 20-bit fractions of full scale that
share the fourth octet, and a checksum.

```text
status | h19..h12 | h11..h4 | h3..h0 t19..t16 | t15..t8 | t7..t0 | checksum
```

The checksum is a CRC-8 with the generator `x ^ 8 + x ^ 5 + x ^ 4 + 1`, most significant bit first,
from a register of ones, over the six octets before it.

Decoding is parsing the layout and then scaling; encoding is quantising and then laying out. The two
halves meet in `RawSample`, which is exact, so that everything that rounds stands in
`RawSample.toSample` and `RawSample.quantise`.

## Main definitions

* `Checksum.crc8` – the checksum of any octets.
* `RawSample` – the two fractions, and `Sample` – the two physical values.
* `RawSample.toSample`, `RawSample.quantise` – between the two.
* `Frame.decode`, `Frame.encode` – between octets and samples.
-/

namespace Hygrometer.Checksum

/-! ### The checksum -/

/-- The generator without its leading term. -/
def generator : UInt8 := 0x31

/-- Shift the register by one bit, and reduce it when a bit leaves it. -/
def shift (register : UInt8) : UInt8 :=
  if register &&& 0x80 ≠ 0 then (register <<< 1) ^^^ generator else register <<< 1

/-- Take one octet into the register. -/
def absorb (register octet : UInt8) : UInt8 := Nat.repeat shift 8 (register ^^^ octet)

/-- The checksum of a list of octets. -/
def crc8 (octets : List UInt8) : UInt8 := octets.foldl absorb 0xFF

end Hygrometer.Checksum

namespace Hygrometer

open Text (numeral hexByte)

/-- A decoded measurement: relative humidity in percent and temperature in degrees Celsius. -/
structure Sample where
  /-- Relative humidity in percent. -/
  humidity : Binary64
  /-- Temperature in degrees Celsius. -/
  temperatureC : Binary64
deriving DecidableEq

/-- How many steps the sensor's full scale has: as many as twenty bits can count. -/
abbrev rawScale : Nat := 0x100000

/-- A measurement as the sensor counts it: twenty bits for each value. -/
structure RawSample where
  /-- Humidity, of a full scale of 100 %. -/
  humidity : Fin rawScale
  /-- Temperature, of a full scale of 200 °C that starts at -50 °C. -/
  temperature : Fin rawScale
deriving DecidableEq

namespace RawSample

/-- The full scale of a raw value. -/
def fullScale : Binary64 := .ofNat rawScale

/-- The physical values. -/
def toSample (raw : RawSample) : Sample where
  humidity := .ofNat raw.humidity / fullScale * 100
  temperatureC := .ofNat raw.temperature / fullScale * 200 - 50

/-- A fraction of full scale as the nearest raw value; the top of the scale is the greatest one. -/
def ofFraction (x : Binary64) : Fin rawScale :=
  .ofNat rawScale ((x * fullScale).toNatNearest (rawScale - 1))

/-- The raw values nearest to physical ones, which are first moved into the sensor's range. A value
that is not a number counts as the bottom of the scale. -/
def quantise (humidity temperatureC : Binary64) : RawSample where
  humidity := ofFraction (humidity.clamp 0 100 / 100)
  temperature := ofFraction ((temperatureC.clamp (-50) 150 + 50) / 200)

/-- The five octets between status and checksum. -/
def octets (raw : RawSample) : List UInt8 :=
  let h := raw.humidity.val
  let t := raw.temperature.val
  [.ofNat (h / 0x1000), .ofNat (h / 0x10), .ofNat (h % 0x10 * 0x10 + t / 0x10000),
    .ofNat (t / 0x100), .ofNat t]

/-- The raw values in five octets. -/
def ofOctets (b1 b2 b3 b4 b5 : UInt8) : RawSample where
  humidity := .ofNat rawScale (b1.toNat * 0x1000 + b2.toNat * 0x10 + b3.toNat / 0x10)
  temperature := .ofNat rawScale (b3.toNat % 0x10 * 0x10000 + b4.toNat * 0x100 + b5.toNat)

end RawSample

namespace Frame

/-- The address the sensor answers at, unless configured otherwise. -/
def defaultAddress : UInt8 := 0x38

/-- The command that triggers a measurement. -/
def trigger : List UInt8 := [0xAC, 0x33, 0x00]

/-- How many octets a frame has. -/
def size : Nat := 7

/-- The status of a ready, calibrated sensor. -/
def readyStatus : UInt8 := 0x1C

/-- The status bit of a sensor that is still measuring. -/
def isBusy (status : UInt8) : Bool := status &&& 0x80 ≠ 0

/-- The status bit of a calibrated sensor. -/
def isCalibrated (status : UInt8) : Bool := status &&& 0x08 ≠ 0

/-- Why octets are no valid frame. -/
inductive Fault where
  /-- There are too few octets. -/
  | tooShort (length : Nat)
  /-- The measurement is not ready. -/
  | busy
  /-- The sensor is not calibrated. -/
  | uncalibrated
  /-- The checksum is not that of the octets before it. -/
  | corrupt (got expected : UInt8)
deriving DecidableEq

/-- The failure that a client sees. -/
def Fault.toFailure : Fault → Failure
  | tooShort length =>
    ⟨.malformedPayload, "dht20 frame too short: " ++ numeral length ++ " bytes"⟩
  | busy => ⟨.sensorUnavailable, "dht20 busy, measurement not ready"⟩
  | uncalibrated => ⟨.sensorUnavailable, "dht20 not calibrated"⟩
  | corrupt got expected =>
    ⟨.malformedPayload,
      "dht20 crc mismatch: got 0x" ++ hexByte got ++ ", expected 0x" ++ hexByte expected⟩

/-- The raw values of a frame. Only the first seven octets count, and status is looked at before the
checksum. -/
def parse : List UInt8 → Except Fault RawSample
  | status :: b1 :: b2 :: b3 :: b4 :: b5 :: checksum :: _ =>
    let expected := Checksum.crc8 [status, b1, b2, b3, b4, b5]
    if isBusy status then .error .busy
    else if !isCalibrated status then .error .uncalibrated
    else if expected ≠ checksum then .error (.corrupt checksum expected)
    else .ok (.ofOctets b1 b2 b3 b4 b5)
  | octets => .error (.tooShort octets.length)

/-- The sample in a frame. -/
def decode (octets : List UInt8) : Except Fault Sample := RawSample.toSample <$> parse octets

/-- The frame of a ready, calibrated sensor for raw values. -/
def ofRaw (raw : RawSample) : List UInt8 :=
  let body := readyStatus :: raw.octets
  body ++ [Checksum.crc8 body]

/-- The frame that a ready, calibrated sensor sends for physical values. -/
def encode (humidity temperatureC : Binary64) : List UInt8 :=
  ofRaw (.quantise humidity temperatureC)

end Frame
end Hygrometer
