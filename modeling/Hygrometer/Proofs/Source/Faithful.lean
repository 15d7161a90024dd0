import Hygrometer.Proofs.Acquisition.Plausible
import Hygrometer.Proofs.Config.Validity
import Hygrometer.Proofs.Frame.Scale
import Hygrometer.Proofs.Source.Simulated

/-!
# What a simulated source reports

A simulated source has one reading, of what the board's frame decodes to and of the light that fits
in twelve bits, and it gives this reading whenever it is asked. Valid conditions are in the range of
the sensor, where quantisation is at most one step off (`Ambient.abs_sub_le_of_validate`); so they
are what is reported, up to that step.

**The bound is one step and not half of one.** The conditions are any numbers in range, and bringing
them to the scale of the sensor rounds before the nearest raw number is taken. The rounding is tiny,
but a number close to the middle between two steps may end on the other side of it. At the upper end
of a range there is a second reason: full scale itself has no raw number, and the greatest one is a
whole step below it.

Nothing but these bounds, and that the light is not cut, needs valid conditions. Which number a
source reports is said for all of them, infinities and not-a-number included, as the measurement
that encoding them gives.
-/

namespace Hygrometer

/-- The light of a pin with an input is the sample, up to twelve bits. -/
theorem Light.toNat_shown_min (pin : UInt8) (raw : UInt16) :
    (shown pin (min raw maxSample)).toNat =
      if 26 ≤ pin ∧ pin ≤ 29 then min raw.toNat 4095 else 0 := by
  split
  · next hpin =>
    rw [shown_of_input hpin, Std.min_eq_if]
    split
    · next hle => exact (Nat.min_eq_left (UInt16.le_iff_toNat_le.1 hle)).symm
    · next hgt => exact (Nat.min_eq_right (UInt16.lt_iff_toNat_lt.1 (UInt16.not_le.1 hgt)).le).symm
  · next hpin =>
    rw [shown_of_not_input hpin]
    rfl

/-- **Valid conditions are kept up to one step.** -/
theorem Ambient.abs_sub_le_of_validate {c : Ambient} (h : c.validate = .ok ()) :
    let raw := RawSample.quantise c.humidity c.temperatureC
    (∃ q, c.humidity.value? = some q ∧ |raw.percent - q| ≤ 100 / 2 ^ 20) ∧
    (∃ q, c.temperatureC.value? = some q ∧ |raw.celsius - q| ≤ 200 / 2 ^ 20) ∧
    c.lightRaw ≤ 4095 := by
  intro raw
  obtain ⟨⟨q, hq, hq0, hq1⟩, ⟨t, ht, ht0, ht1⟩, hlight⟩ := validate_eq_ok_iff.1 h
  have hhumidity :=
    RawSample.isScale_percent.abs_scaled_sub_le (Binary64.clamped?_of_mem hq hq0 hq1)
  have htemperature :=
    RawSample.isScale_celsius.abs_scaled_sub_le (Binary64.clamped?_of_mem ht ht0 ht1)
  refine ⟨⟨q, hq, ?_⟩, ⟨t, ht, ?_⟩, hlight⟩
  · rw [raw.percent_eq_scaled]
    exact hhumidity.trans_eq (by norm_num)
  · rw [raw.celsius_eq_scaled]
    exact htemperature.trans_eq (by norm_num)

namespace Source

/-- **A simulated source is total and faithful.** Whatever its conditions are, the frame of them
decodes, and every answer of the source is the reading of what it decodes to: this humidity, this
temperature, also in degrees Fahrenheit, and the configured light up to twelve bits, or none if the
pin is not one of 26 to 29. If the configuration is valid, humidity and temperature are at most one
step of the sensor off the configured ones, and the light of a pin that shows it is the configured
one. -/
theorem simulated_faithful {c : SourceConfig} (hkind : c.kind = .simulated) :
    let light := if 26 ≤ c.lightPin ∧ c.lightPin ≤ 29 then min c.ambient.lightRaw.toNat 4095 else 0
    ∃ s, Frame.decode (Frame.encode c.ambient.humidity c.ambient.temperatureC) = .ok s ∧
      (∀ asked now, (ofConfig c).answer asked now =
        .ok ⟨s.humidity, s.temperatureC, fahrenheit s.temperatureC, .ofNat light, now⟩) ∧
      (∃ t, s.temperatureC.value? = some t ∧
        (fahrenheit s.temperatureC).value? = some (9 / 5 * t + 32)) ∧
      (c.validate = .ok () →
        (∃ p q, c.ambient.humidity.value? = some p ∧ s.humidity.value? = some q ∧
          |q - p| ≤ 100 / 2 ^ 20) ∧
        (∃ p q, c.ambient.temperatureC.value? = some p ∧ s.temperatureC.value? = some q ∧
          |q - p| ≤ 200 / 2 ^ 20) ∧
        (26 ≤ c.lightPin → c.lightPin ≤ 29 →
          (Binary64.ofNat light).value? = some (c.ambient.lightRaw.toNat : ℚ))) := by
  intro light
  let raw := RawSample.quantise c.ambient.humidity c.ambient.temperatureC
  refine ⟨raw.toSample, Frame.decode_ofRaw raw, ?_, ?_, ?_⟩
  · intro asked now
    have hlight : (Light.shown c.lightPin (min c.ambient.lightRaw Light.maxSample)).toNat = light :=
      Light.toNat_shown_min c.lightPin c.ambient.lightRaw
    rw [ofConfig, hkind, ← hlight]
    exact simulated_answer c asked now
  · refine ⟨raw.celsius, raw.value?_temperatureC_eq_celsius, ?_⟩
    rw [raw.value?_fahrenheit, raw.degreesF_eq]
  · intro hvalid
    obtain ⟨⟨p, hp, hhumidity⟩, ⟨t, ht, htemperature⟩, hraw⟩ :=
      Ambient.abs_sub_le_of_validate (SourceConfig.validate_eq_ok_iff.1 hvalid).2
    refine ⟨⟨p, _, hp, raw.value?_humidity_eq_percent, hhumidity⟩,
      ⟨t, _, ht, raw.value?_temperatureC_eq_celsius, htemperature⟩, ?_⟩
    intro hfirst hlast
    have hlight : light = c.ambient.lightRaw.toNat := by
      rw [show light = min c.ambient.lightRaw.toNat 4095 from if_pos ⟨hfirst, hlast⟩]
      exact Nat.min_eq_left (UInt16.le_iff_toNat_le.1 hraw)
    rw [hlight]
    exact Binary64.value?_ofNat (c.ambient.lightRaw.toNat_lt.trans (by decide))

/-- Conditions at the top of their scales are valid, so they are kept up to one step, although no
frame holds such a humidity or such a temperature. -/
theorem simulated_faithful_full_scale :
    let c : SourceConfig :=
      { kind := .simulated, address := 0x7F, lightPin := 29, ambient := ⟨100, 150, 4095⟩ }
    c.validate = .ok () ∧ ∃ s, Frame.decode (Frame.encode 100 150) = .ok s ∧
      (∀ asked now, (ofConfig c).answer asked now =
        .ok ⟨s.humidity, s.temperatureC, fahrenheit s.temperatureC, .ofNat 4095, now⟩) ∧
      (∃ p q, (100 : Binary64).value? = some p ∧ s.humidity.value? = some q ∧
        |q - p| ≤ 100 / 2 ^ 20) ∧
      ∃ p q, (150 : Binary64).value? = some p ∧ s.temperatureC.value? = some q ∧
        |q - p| ≤ 200 / 2 ^ 20 := by
  intro c
  have hvalid : c.validate = .ok () := by decide +kernel
  obtain ⟨s, hdecode, hanswer, -, hclose⟩ := simulated_faithful (c := c) rfl
  obtain ⟨hhumidity, htemperature, -⟩ := hclose hvalid
  exact ⟨hvalid, s, hdecode, hanswer, hhumidity, htemperature⟩

end Source
end Hygrometer
