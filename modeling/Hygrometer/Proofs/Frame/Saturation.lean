import Hygrometer.Proofs.Frame.Classification
import Hygrometer.Proofs.Frame.Scale

/-!
# Any two numbers make a frame

Encoding refuses nothing. A number outside the sensor's range, an infinity included, is encoded as
the end of the range that it passes, and not-a-number as the bottom of the scale. The raw value of
full scale would be one more than twenty bits can hold; it is capped, so it never spills into the
other number's half of the octet that they share (`RawSample.val_ofFraction`).

What is true of a single number is true of its scale, so it is said there once for both
(`RawSample.IsScale`). Here it is put together with what a frame says: the two raw values of a frame
are its two fields (`field_ofRaw`), and what decodes is the measurement with these raw values
(`decode_encode`), so `encode_saturates` speaks of octets and not of raw values at all.
-/

namespace Hygrometer

open Binary64

namespace Frame

/-- The two numbers in the frame of a measurement. -/
theorem field_ofRaw (raw : RawSample) :
    field (ofRaw raw) 8 20 = raw.humidity ∧ field (ofRaw raw) 28 20 = raw.temperature := by
  obtain ⟨b1, b2, b3, b4, b5, hoctets⟩ : ∃ b1 b2 b3 b4 b5, raw.octets = [b1, b2, b3, b4, b5] :=
    ⟨_, _, _, _, _, rfl⟩
  have hraw := raw.ofOctets_octets hoctets
  have hframe : ofRaw raw = readyStatus :: b1 :: b2 :: b3 :: b4 :: b5 ::
      [Checksum.crc8 (readyStatus :: raw.octets)] := by
    simp [ofRaw, hoctets]
  rw [hframe, field_humidity, field_temperature, hraw]
  exact ⟨rfl, rfl⟩

theorem decode_encode (h t : Binary64) :
    decode (encode h t) = .ok (RawSample.quantise h t).toSample := decode_ofRaw _

/-- **Any two numbers make a frame that decodes.** The frame holds the nearest raw values, capped at
twenty bits. Not-a-number is the bottom of the scale; of any other number the sample is at most one
step away from what it is clamped to. Each of the two values of the sample depends on its own number
only and grows with it. -/
theorem encode_saturates (h t : Binary64) :
    ∃ s, decode (encode h t) = .ok s ∧
      (h = .nan → field (encode h t) 8 20 = 0 ∧ s.humidity.value? = some 0) ∧
      (t = .nan → field (encode h t) 28 20 = 0 ∧ s.temperatureC.value? = some (-50)) ∧
      (h ≠ .nan →
        (∃ v, (h.clamp 0 100 / 100 * RawSample.fullScale).value? = some v ∧
          field (encode h t) 8 20 = min (2 ^ 20 - 1) ⌊v + 1 / 2⌋₊) ∧
        ∃ c q, h.clamped? 0 100 = some c ∧ s.humidity.value? = some q ∧ |q - c| ≤ 100 / 2 ^ 20) ∧
      (t ≠ .nan →
        (∃ v, ((t.clamp (-50) 150 + 50) / 200 * RawSample.fullScale).value? = some v ∧
          field (encode h t) 28 20 = min (2 ^ 20 - 1) ⌊v + 1 / 2⌋₊) ∧
        ∃ c q, t.clamped? (-50) 150 = some c ∧ s.temperatureC.value? = some q ∧
          |q - c| ≤ 200 / 2 ^ 20) ∧
      ∀ h' t' s', decode (encode h' t') = .ok s' →
        (h = h' → s.humidity = s'.humidity) ∧ (t = t' → s.temperatureC = s'.temperatureC) ∧
        (h ≠ .nan → h' ≠ .nan → lt h' h = false →
          ∃ q q', s.humidity.value? = some q ∧ s'.humidity.value? = some q' ∧ q ≤ q') ∧
        (t ≠ .nan → t' ≠ .nan → lt t' t = false →
          ∃ q q', s.temperatureC.value? = some q ∧ s'.temperatureC.value? = some q' ∧ q ≤ q') := by
  obtain ⟨hhumidity, htemperature⟩ := field_ofRaw (RawSample.quantise h t)
  have hpercent (h t : Binary64) := (RawSample.quantise h t).value?_humidity_eq_percent
  have hcelsius (h t : Binary64) := (RawSample.quantise h t).value?_temperatureC_eq_celsius
  simp only [RawSample.percent_eq_scaled] at hpercent
  simp only [RawSample.celsius_eq_scaled] at hcelsius
  refine ⟨_, decode_encode h t, ?_, ?_, ?_, ?_, ?_⟩
  · rintro rfl
    have hzero := RawSample.isScale_percent.ofFraction_nan
    refine ⟨hhumidity.trans (congrArg Fin.val hzero), (hpercent _ t).trans ?_⟩
    rw [RawSample.quantise, hzero]
    simp [RawSample.scaled]
  · rintro rfl
    have hzero := RawSample.isScale_celsius.ofFraction_nan
    refine ⟨htemperature.trans (congrArg Fin.val hzero), (hcelsius h _).trans ?_⟩
    rw [RawSample.quantise, hzero]
    simp [RawSample.scaled]
  · intro hh
    obtain ⟨v, hv, hraw⟩ := RawSample.isScale_percent.exists_val_eq hh
    obtain ⟨c, hc⟩ := exists_clamped?_eq (a := 0) (b := 100) hh
    have hnear := RawSample.isScale_percent.abs_scaled_sub_le hc
    exact ⟨⟨v, hv, hhumidity.trans hraw⟩, c, _, hc, hpercent h t, hnear.trans_eq (by norm_num)⟩
  · intro ht
    obtain ⟨v, hv, hraw⟩ := RawSample.isScale_celsius.exists_val_eq ht
    obtain ⟨c, hc⟩ := exists_clamped?_eq (a := -50) (b := 150) ht
    have hnear := RawSample.isScale_celsius.abs_scaled_sub_le hc
    exact ⟨⟨v, hv, htemperature.trans hraw⟩, c, _, hc, hcelsius h t, hnear.trans_eq (by norm_num)⟩
  -- Each number that is decoded depends on its own raw number alone.
  · intro h' t' s' hs'
    obtain rfl := Except.ok.inj ((decode_encode h' t').symm.trans hs')
    refine ⟨?_, ?_, fun hh hh' hle ↦ ?_, fun ht ht' hle ↦ ?_⟩
    · rintro rfl
      rfl
    · rintro rfl
      rfl
    · exact ⟨_, _, hpercent h t, hpercent h' t', RawSample.isScale_percent.scaled_le hh hh' hle⟩
    · exact ⟨_, _, hcelsius h t, hcelsius h' t', RawSample.isScale_celsius.scaled_le ht ht' hle⟩

/-- An infinite humidity beside a temperature that is none, and beside it the end of the range. -/
theorem encode_saturates_infinite :
    ∃ s s', decode (encode (.infinite false) .nan) = .ok s ∧ decode (encode 100 150) = .ok s' ∧
      field (encode (.infinite false) .nan) 28 20 = 0 ∧ s.temperatureC.value? = some (-50) ∧
      (∃ q, s.humidity.value? = some q ∧ |q - 100| ≤ 100 / 2 ^ 20) ∧
      ∃ q q', s'.humidity.value? = some q ∧ s.humidity.value? = some q' ∧ q ≤ q' := by
  obtain ⟨s, hs, -, hnan, hinfinite, -, -⟩ := encode_saturates (.infinite false) .nan
  obtain ⟨s', hs', -, -, -, -, horder⟩ := encode_saturates 100 150
  obtain ⟨hfield, hcelsius⟩ := hnan rfl
  obtain ⟨-, c, q, hc, hq, hnear⟩ := hinfinite (by decide)
  obtain rfl : (100 : ℚ) = c := Option.some.inj hc
  obtain ⟨-, -, hgreater, -⟩ := horder _ _ s hs
  exact ⟨s, s', hs, hs', hfield, hcelsius, ⟨q, hq, hnear⟩,
    hgreater (by decide +kernel) (by decide) (by decide +kernel)⟩

end Frame
end Hygrometer
