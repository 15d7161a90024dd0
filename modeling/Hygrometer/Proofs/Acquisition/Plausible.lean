import Hygrometer.Proofs.Acquisition.Course
import Hygrometer.Proofs.Frame.Classification
import Hygrometer.Source

/-!
# No reading is implausible

A reading is made of a frame that decodes and of a sample of twelve bits (`Course.exists_of_ok`), so
its bounds are those of the format, whatever the hardware does (`latest_plausible`). The hardware is
any at all: nothing is assumed of its answers, and a reading that would be out of bounds ends as a
failure before it is made.

**Degrees Fahrenheit are exact** as well, although they are computed with a product, a quotient and
a sum. A temperature is a fraction over `2 ^ 20`; nine times it has few more bits, and the factor
200 of its scale takes the division by five (`value?_fahrenheit`). So no step has anything to round,
and the bounds are those of the exact number (`degreesF_bounds`).

Light is a sample of the converter, or zero where the pin is no input of it. The greatest values do
occur: a device whose sensors are all at the top of their scales gives a reading
(`latest_plausible_glaring`).
-/

namespace Hygrometer

open Binary64

namespace RawSample

variable (raw : RawSample)

/-- The temperature in degrees Fahrenheit. -/
def degreesF : ℚ := raw.temperature * 360 / 2 ^ 20 - 58

theorem degreesF_eq : raw.degreesF = 9 / 5 * raw.celsius + 32 := by
  rw [degreesF, celsius]
  ring

/-- **Degrees Fahrenheit are exact**: on the way to them nothing is rounded. -/
theorem value?_fahrenheit :
    (fahrenheit raw.toSample.temperatureC).value? = some raw.degreesF := by
  have hrep (k j : ℕ) (hk : k ≤ rawScale) (hj : j ≤ rawScale) :
      Representable (raw.temperature * k / 2 ^ 20 - j) := by
    have h := representable_mul_div_sub raw.temperature hk hj
    have hscale : ((rawScale : ℕ) : ℚ) = 2 ^ 20 := by norm_num
    rwa [hscale, div_mul_eq_mul_div] at h
  have hnine : raw.celsius * (9 : ℕ) = raw.temperature * (1800 : ℕ) / 2 ^ 20 - (450 : ℕ) := by
    rw [celsius]
    push_cast
    ring
  have hfifth : raw.celsius * (9 : ℕ) / (5 : ℕ) =
      raw.temperature * (360 : ℕ) / 2 ^ 20 - (90 : ℕ) := by
    rw [celsius]
    push_cast
    ring
  have hsum : raw.celsius * (9 : ℕ) / (5 : ℕ) + (32 : ℕ) =
      raw.temperature * (360 : ℕ) / 2 ^ 20 - (58 : ℕ) := by
    rw [celsius]
    push_cast
    ring
  have hmul := value?_mul raw.value?_temperatureC_eq_celsius (value?_literal (by decide))
    (hnine ▸ hrep 1800 450 (by decide) (by decide))
  have hdiv := value?_div hmul (value?_literal (by decide)) (by norm_num)
    (hfifth ▸ hrep 360 90 (by decide) (by decide))
  have hadd := value?_add hdiv (value?_literal (by decide))
    (hsum ▸ hrep 360 58 (by decide) (by decide))
  rw [hsum] at hadd
  exact hadd

/-- The scale of the temperature goes from -58 to 302 degrees Fahrenheit. -/
theorem degreesF_bounds : -58 ≤ raw.degreesF ∧ raw.degreesF < 302 := by
  obtain ⟨hlow, hhigh⟩ := raw.celsius_bounds
  rw [degreesF_eq]
  constructor <;> linarith

end RawSample

/-- What makes a reading: octets that were read and decode, and a sample of at most twelve bits that
was taken, or zero if the pin has no input. -/
theorem Acquisition.Course.exists_of_ok {address pin : UInt8} {now : UInt64} {calls : List Call}
    {answers : List Answer} {r : Reading} (h : Course address pin now calls answers (.ok r)) :
    ∃ octets s light, .got (.ok octets) ∈ answers ∧ Frame.decode octets = .ok s ∧
      r = reading s light now ∧ light ≤ 4095 ∧
      if 26 ≤ pin ∧ pin ≤ 29 then .sampled (.ok light) ∈ answers else light = 0 := by
  -- Only two of the ways end in a reading.
  cases h with
  | dark hdecode hpin => exact ⟨_, _, 0, by simp, hdecode, rfl, by decide, by rw [if_neg hpin]⟩
  | complete hdecode hpin hraw =>
    exact ⟨_, _, _, by simp, hdecode, rfl, hraw, by rw [if_pos hpin]; simp⟩

/-- **No reading is implausible.** Whatever the hardware does, a reading that a device gives has a
humidity from 0 % to one step below 100 %, a temperature from -50 °C to one step below 150 °C, and
exactly that temperature in degrees Fahrenheit, which is that of the number in the frame that was
read. Its light is the sample that was taken, of at most twelve bits, and zero if the pin is not one
of 26 to 29. So all its measurements are finite. -/
theorem Device.latest_plausible {σ : Type} (d : Device σ) (state : σ) (now : UInt64) {r : Reading}
    (h : ((d.latest now).run state).result = .ok r) :
    let answers := (d.hardware.answers ((d.latest now).run state).calls state).1
    (∃ q, r.humidity.value? = some q ∧ 0 ≤ q ∧ q ≤ 100 * (2 ^ 20 - 1) / 2 ^ 20) ∧
    (∃ c, r.temperatureC.value? = some c ∧ -50 ≤ c ∧ c ≤ 150 - 200 / 2 ^ 20 ∧
      ∃ f, r.temperatureF.value? = some f ∧ f = 9 / 5 * c + 32 ∧ -58 ≤ f ∧ f < 302 ∧
        ∃ octets, .got (.ok octets) ∈ answers ∧
          f = (Frame.field octets 28 20 : ℚ) * 360 / 2 ^ 20 - 58) ∧
    (∃ light : UInt16, r.light.value? = some (light.toNat : ℚ) ∧ light ≤ 4095 ∧
      if 26 ≤ d.lightPin ∧ d.lightPin ≤ 29 then .sampled (.ok light) ∈ answers else light = 0) ∧
    r.humidity.isFinite = true ∧ r.temperatureC.isFinite = true ∧
    r.temperatureF.isFinite = true ∧ r.light.isFinite = true := by
  intro answers
  have hcourse := Acquisition.course_acquire d.hardware d.address d.lightPin now state
  have hok : ((Acquisition.acquire d.hardware d.address d.lightPin now).run state).result = .ok r :=
    h
  simp only [hok] at hcourse
  obtain ⟨octets, s, light, hgot, hdecode, rfl, hle, hlight⟩ := hcourse.exists_of_ok
  obtain ⟨raw, rfl, -, htemperature⟩ := Frame.exists_raw_of_decode hdecode
  -- All four numbers are known exactly, so the bounds are those of rationals.
  have hhumidity := raw.value?_humidity_eq_percent
  have hcelsius := raw.value?_temperatureC_eq_celsius
  have hfahrenheit := raw.value?_fahrenheit
  have hlightValue : (Binary64.ofNat light.toNat).value? = some (light.toNat : ℚ) :=
    value?_ofNat (light.toNat_lt.trans (by decide))
  obtain ⟨hpercent, hpercent'⟩ := raw.percent_bounds
  obtain ⟨hlow, hhigh⟩ := raw.celsius_bounds
  obtain ⟨hlowF, hhighF⟩ := raw.degreesF_bounds
  refine ⟨⟨_, hhumidity, hpercent, by linarith⟩, ?_, ⟨light, hlightValue, hle, hlight⟩,
    isFinite_of_value? hhumidity, isFinite_of_value? hcelsius, isFinite_of_value? hfahrenheit,
    isFinite_of_value? hlightValue⟩
  refine ⟨_, hcelsius, hlow, hhigh, _, hfahrenheit, raw.degreesF_eq, hlowF, hhighF, octets, hgot,
    ?_⟩
  rw [← htemperature, RawSample.degreesF]

/-- A device whose sensors are all at the top of their scales. -/
def Device.glaring : Device Unit where
  hardware :=
    { write := fun _ _ _ ↦ (.ok (), ())
      read := fun _ _ _ ↦ (.ok [0x1C, 0xFF, 0xFF, 0xFF, 0xFF, 0xFF, 0x7A], ())
      sample := fun _ _ ↦ (.ok 4095, ()) }
  address := 0x38
  lightPin := 29

theorem Device.latest_plausible_glaring :
    let r := Acquisition.reading (RawSample.toSample ⟨0xFFFFF, 0xFFFFF⟩) 4095 0
    ((glaring.latest 0).run ()).result = .ok r ∧
    (∃ q, r.humidity.value? = some q ∧ 0 ≤ q ∧ q ≤ 100 * (2 ^ 20 - 1) / 2 ^ 20) ∧
    r.temperatureF.isFinite = true := by
  intro r
  have hparse : Frame.parse [0x1C, 0xFF, 0xFF, 0xFF, 0xFF, 0xFF, 0x7A] =
      .ok ⟨0xFFFFF, 0xFFFFF⟩ :=
    Frame.parse_eq_ok_iff.2 ⟨0x1C, 0xFF, 0xFF, 0xFF, 0xFF, 0xFF, [], by decide +kernel, by decide,
      by decide, by decide⟩
  have hdecode := Frame.decode_eq_ok_iff.2 ⟨_, hparse, rfl⟩
  have hmeasure : (Acquisition.measure glaring.hardware 0x38).run () =
      ⟨.ok (RawSample.toSample ⟨0xFFFFF, 0xFFFFF⟩),
        [.write 0x38 Frame.trigger, .read 0x38 Frame.size], ()⟩ := by
    refine (Acquisition.measure_of_read rfl rfl).trans ?_
    rw [hdecode]
    rfl
  have hok : ((glaring.latest 0).run ()).result = .ok r := by
    rw [latest, show glaring.address = 0x38 from rfl, Acquisition.acquire_of_measure 0 hmeasure]
    rfl
  obtain ⟨hhumidity, -, -, -, -, hfinite, -⟩ := glaring.latest_plausible () 0 hok
  exact ⟨hok, hhumidity, hfinite⟩

end Hygrometer
