import Mathlib.Logic.Basic
import Mathlib.Tactic.SplitIfs
import Hygrometer.Frame
import Hygrometer.Proofs.Binary64.Exact

/-!
# Encoding undoes decoding

Five octets and two numbers of twenty bits hold the same forty bits, so cutting the numbers out and
putting them back lose nothing in either direction (`octets_ofOctets`, `ofOctets_octets`). With the
status and the checksum around them this says what `parse` accepts: exactly the texts of
`parse_eq_ok_iff`, whatever comes after the seventh octet.

The physical values of a measurement are its raw values times a scale, and every number on the way
there and back is a fraction over `2 ^ 20` with a numerator far below 53 bits. So nothing is rounded
on that way (`value?_humidity`, `value?_temperatureC`), and quantising the physical values finds the
raw ones again, all `2 ^ 40` pairs of them (`quantise_toSample`). No case split over the pairs is
made: that a number is exact is a fact about its numerator, and the bound on it is one for all.

The way back is the same for both scales. A number that was multiplied by the width of its scale is
divided by it again, which gives the fraction that it was (`ofFraction_div`), and a fraction of full
scale is rounded to its numerator. The end of the scale is no exception, since the greatest raw
number is one step short of it.

The rest is the layout: the raw values fix the five octets between status and checksum. So a frame
and its encoding differ in nothing but the status, which a sample does not have, and in what follows
the seventh octet, which no sample has either (`encode_of_parse`).
-/

namespace Hygrometer

/-! ### The layout -/

namespace RawSample

/-- **The octets that a measurement was cut from are its octets.** -/
theorem octets_ofOctets (b1 b2 b3 b4 b5 : UInt8) :
    (ofOctets b1 b2 b3 b4 b5).octets = [b1, b2, b3, b4, b5] := by
  have h1 := b1.toNat_lt
  have h2 := b2.toNat_lt
  have h3 := b3.toNat_lt
  have h4 := b4.toNat_lt
  have h5 := b5.toNat_lt
  -- Every octet is a quotient or a remainder by a literal, and so is what it is cut into.
  simp only [octets, ofOctets, Fin.val_ofNat, List.cons.injEq, and_true, ← UInt8.toNat_inj,
    UInt8.toNat_ofNat', rawScale]
  refine ⟨?_, ?_, ?_, ?_, ?_⟩ <;> omega

/-- **A measurement is cut from its octets whole.** -/
theorem ofOctets_octets (raw : RawSample) {b1 b2 b3 b4 b5 : UInt8}
    (h : raw.octets = [b1, b2, b3, b4, b5]) : ofOctets b1 b2 b3 b4 b5 = raw := by
  obtain ⟨⟨humidity, hh⟩, ⟨temperature, ht⟩⟩ := raw
  simp only [octets, List.cons.injEq, and_true] at h
  obtain ⟨rfl, rfl, rfl, rfl, rfl⟩ := h
  simp only [ofOctets, RawSample.mk.injEq, ← Fin.val_inj, Fin.val_ofNat, UInt8.toNat_ofNat',
    rawScale] at hh ht ⊢
  constructor <;> omega

end RawSample

namespace Frame

/-- What `parse` accepts: a status that is ready and calibrated, five octets, the checksum of these
six, and then anything. -/
theorem parse_eq_ok_iff {octets : List UInt8} {raw : RawSample} :
    parse octets = .ok raw ↔
      ∃ status b1 b2 b3 b4 b5 rest,
        octets = status :: b1 :: b2 :: b3 :: b4 :: b5 ::
          Checksum.crc8 [status, b1, b2, b3, b4, b5] :: rest ∧
        isBusy status = false ∧ isCalibrated status = true ∧ raw = .ofOctets b1 b2 b3 b4 b5 := by
  constructor
  · intro h
    unfold parse at h
    split at h
    · next status b1 b2 b3 b4 b5 checksum rest =>
      dsimp only at h
      split_ifs at h with hbusy hcalibrated hchecksum
      refine ⟨status, b1, b2, b3, b4, b5, rest, ?_, ?_, ?_, ?_⟩
      · rw [not_not.1 hchecksum]
      · exact Bool.eq_false_iff.2 hbusy
      · simpa using hcalibrated
      · exact (Except.ok.inj h).symm
    · cases h
  · rintro ⟨status, b1, b2, b3, b4, b5, rest, rfl, hbusy, hcalibrated, rfl⟩
    simp [parse, hbusy, hcalibrated]

/-- The frame of a measurement is read back, whatever follows it. -/
theorem parse_ofRaw_append (raw : RawSample) (rest : List UInt8) :
    parse (ofRaw raw ++ rest) = .ok raw := by
  obtain ⟨b1, b2, b3, b4, b5, h⟩ : ∃ b1 b2 b3 b4 b5, raw.octets = [b1, b2, b3, b4, b5] :=
    ⟨_, _, _, _, _, rfl⟩
  refine parse_eq_ok_iff.2 ⟨readyStatus, b1, b2, b3, b4, b5, rest, ?_, by decide, by decide, ?_⟩
  · simp [ofRaw, h]
  · exact (raw.ofOctets_octets h).symm

theorem decode_eq_ok_iff {octets : List UInt8} {s : Sample} :
    decode octets = .ok s ↔ ∃ raw, parse octets = .ok raw ∧ raw.toSample = s := by
  rw [decode]
  rcases parse octets with fault | raw <;> simp [Functor.map, Except.map]

/-- The frame of a measurement is decoded to its physical values, whatever follows it. -/
theorem decode_ofRaw_append (raw : RawSample) (rest : List UInt8) :
    decode (ofRaw raw ++ rest) = .ok raw.toSample :=
  decode_eq_ok_iff.2 ⟨raw, parse_ofRaw_append raw rest, rfl⟩

@[simp] theorem decode_ofRaw (raw : RawSample) : decode (ofRaw raw) = .ok raw.toSample := by
  have h := decode_ofRaw_append raw []
  rwa [List.append_nil] at h

end Frame

/-! ### The scales -/

open Binary64

namespace RawSample

/-- The numbers on the way are fractions of full scale with small numerators. -/
theorem representable_div_rawScale {n : ℤ} (hn : n.natAbs < 2 * leadingBit) :
    Representable ((n : ℚ) / rawScale) := by
  have h := representable_div_two_pow hn (show 20 ≤ 1074 by decide)
  norm_num at h ⊢
  exact h

theorem value?_fullScale : fullScale.value? = some (rawScale : ℚ) := value?_ofNat (by decide)

/-- A raw value has room for a factor before it leaves 53 bits. -/
theorem val_mul_lt (n : Fin rawScale) {k : ℕ} (hk : k ≤ rawScale) :
    (n : ℕ) * k < 2 * leadingBit :=
  calc (n : ℕ) * k ≤ rawScale * rawScale := Nat.mul_le_mul n.isLt.le hk
    _ < 2 * leadingBit := by decide

/-- A raw value as a fraction of full scale. -/
theorem value?_fraction (n : Fin rawScale) :
    (ofNat n / fullScale).value? = some ((n : ℚ) / rawScale) := by
  have hn : (n : ℕ) < 2 * leadingBit := by
    simpa using val_mul_lt n (show 1 ≤ rawScale by decide)
  refine value?_div (value?_ofNat hn) value?_fullScale (by norm_num) ?_
  have h := representable_div_rawScale (n := ((n : ℕ) : ℤ)) hn
  rwa [Int.cast_natCast] at h

/-- A raw value times a small factor, as a fraction of full scale and less a small number. -/
theorem representable_mul_div_sub (n : Fin rawScale) {k j : ℕ} (hk : k ≤ rawScale)
    (hj : j ≤ rawScale) : Representable ((n : ℚ) / rawScale * k - j) := by
  have hplus := val_mul_lt n hk
  have hminus : j * rawScale < 2 * leadingBit :=
    (Nat.mul_le_mul_right _ hj).trans_lt (by decide)
  -- The numerator may be negative, so it is one of the integers.
  have h := representable_div_rawScale (n := ((n * k : ℕ) : ℤ) - (j * rawScale : ℕ)) (by omega)
  have heq : (((n * k : ℕ) : ℤ) - (j * rawScale : ℕ) : ℤ) / (rawScale : ℚ) =
      (n : ℚ) / rawScale * k - j := by
    have hne : ((rawScale : ℕ) : ℚ) ≠ 0 := by norm_num
    rw [Int.cast_sub, Int.cast_natCast, Int.cast_natCast, Nat.cast_mul, Nat.cast_mul]
    field_simp
  rwa [heq] at h

/-- A raw value times a small factor, as a fraction of full scale. -/
theorem representable_mul_div (n : Fin rawScale) {k : ℕ} (hk : k ≤ rawScale) :
    Representable ((n : ℚ) / rawScale * k) := by
  have h := representable_mul_div_sub n hk (Nat.zero_le _)
  rwa [Nat.cast_zero, sub_zero] at h

/-- Humidity is the fraction of a full scale of 100, exactly. -/
theorem value?_humidity (raw : RawSample) :
    raw.toSample.humidity.value? = some ((raw.humidity : ℚ) / rawScale * 100) :=
  value?_mul (value?_fraction raw.humidity) (value?_literal (by decide))
    (representable_mul_div raw.humidity (by decide))

/-- Temperature is the fraction of a full scale of 200 that starts at -50, exactly. -/
theorem value?_temperatureC (raw : RawSample) :
    raw.toSample.temperatureC.value? = some ((raw.temperature : ℚ) / rawScale * 200 - 50) := by
  have hscaled : (ofNat raw.temperature / fullScale * 200).value? =
      some ((raw.temperature : ℚ) / rawScale * 200) :=
    value?_mul (value?_fraction raw.temperature) (value?_literal (by decide))
      (representable_mul_div raw.temperature (by decide))
  exact value?_sub hscaled (value?_literal (by decide))
    (representable_mul_div_sub raw.temperature (by decide) (by decide))

/-! ### The way back -/

/-- The fraction of full scale that a raw value is gives that raw value. -/
theorem ofFraction_of_value {x : Binary64} {n : Fin rawScale}
    (hx : x.value? = some ((n : ℚ) / rawScale)) : ofFraction x = n := by
  have hscale : (n : ℚ) / rawScale * rawScale = (n : ℕ) :=
    div_mul_cancel₀ _ (by norm_num)
  have hrep : Representable ((n : ℚ) / rawScale * rawScale) :=
    representable_mul_div n le_rfl
  have hvalue : (x * fullScale).value? = some ((n : ℕ) : ℚ) := by
    rw [value?_mul hx value?_fullScale hrep, hscale]
  rw [ofFraction, toNatNearest_of_natCast hvalue (Nat.le_sub_one_of_lt n.isLt), ← Fin.val_inj,
    Fin.val_ofNat, Nat.mod_eq_of_lt n.isLt]

theorem div_rawScale_lt_one (n : Fin rawScale) : (n : ℚ) / rawScale < 1 := by
  have h : ((n : ℕ) : ℚ) < (rawScale : ℕ) := Nat.cast_lt.2 n.isLt
  rw [div_lt_one (by norm_num)]
  exact h

/-- A multiple of a fraction of full scale, divided again. -/
theorem ofFraction_div {x y : Binary64} {n : Fin rawScale} {k : ℕ} (hk : k ≠ 0)
    (hx : x.value? = some ((n : ℚ) / rawScale * k)) (hy : y.value? = some (k : ℚ)) :
    ofFraction (x / y) = n := by
  have hk' : (k : ℚ) ≠ 0 := Nat.cast_ne_zero.2 hk
  have hcancel : (n : ℚ) / rawScale * k / k = (n : ℚ) / rawScale := mul_div_cancel_right₀ _ hk'
  have hrep : Representable ((n : ℚ) / rawScale * k / k) := by
    have h := representable_mul_div n (show 1 ≤ rawScale by decide)
    rwa [Nat.cast_one, mul_one, ← hcancel] at h
  refine ofFraction_of_value ?_
  rw [value?_div hx hy hk' hrep, hcancel]

/-- **Quantising the physical values finds the raw ones.** -/
theorem quantise_toSample (raw : RawSample) :
    quantise raw.toSample.humidity raw.toSample.temperatureC = raw := by
  have hh := raw.value?_humidity
  have ht := raw.value?_temperatureC
  have hh0 : 0 ≤ (raw.humidity : ℚ) / rawScale := by positivity
  have ht0 : 0 ≤ (raw.temperature : ℚ) / rawScale := by positivity
  have hh1 := div_rawScale_lt_one raw.humidity
  have ht1 := div_rawScale_lt_one raw.temperature
  have hhclamp : raw.toSample.humidity.clamp 0 100 = raw.toSample.humidity :=
    isRange_percent.clamp_of_value hh (by linarith) (by linarith)
  have htclamp : raw.toSample.temperatureC.clamp (-50) 150 = raw.toSample.temperatureC :=
    isRange_celsius.clamp_of_value ht (by linarith) (by linarith)
  -- Adding 50 takes back what was subtracted: the sum has the numerator of before.
  have htshift : (raw.toSample.temperatureC + 50).value? =
      some ((raw.temperature : ℚ) / rawScale * (200 : ℕ)) := by
    have hsum : (raw.temperature : ℚ) / rawScale * 200 - 50 + (50 : ℕ) =
        (raw.temperature : ℚ) / rawScale * (200 : ℕ) := by
      push_cast
      ring
    rw [← hsum]
    refine value?_add ht (value?_literal (by decide)) ?_
    rw [hsum]
    exact representable_mul_div raw.temperature (by decide)
  obtain ⟨humidity, temperature⟩ := raw
  rw [quantise, hhclamp, htclamp, RawSample.mk.injEq]
  exact ⟨ofFraction_div (k := 100) (by decide) hh (value?_literal (by decide)),
    ofFraction_div (k := 200) (by decide) htshift (value?_literal (by decide))⟩

end RawSample

namespace Frame

/-- The frame of what a frame decodes to: the same five octets, with a status and a checksum of its
own. -/
theorem encode_of_parse {octets : List UInt8} {raw : RawSample} (h : parse octets = .ok raw) :
    encode raw.toSample.humidity raw.toSample.temperatureC =
      let body := 0x1C :: (octets.drop 1).take 5
      body ++ [Checksum.crc8 body] := by
  obtain ⟨status, b1, b2, b3, b4, b5, rest, rfl, -, -, rfl⟩ := parse_eq_ok_iff.1 h
  rw [encode, RawSample.quantise_toSample, ofRaw, RawSample.octets_ofOctets]
  rfl

/-- **Encoding undoes decoding.** Let a frame decode to a sample. Then the sample's frame has the
status `0x1C`, the five octets after the status of the frame, and the checksum of these six; it is
the frame itself if that has seven octets and this status; and it decodes to the same sample. -/
theorem encode_decode {octets : List UInt8} {s : Sample} (h : decode octets = .ok s) :
    (encode s.humidity s.temperatureC =
      let body := 0x1C :: (octets.drop 1).take 5
      body ++ [Checksum.crc8 body]) ∧
    (octets.length = 7 → octets.head? = some 0x1C →
      encode s.humidity s.temperatureC = octets) ∧
    decode (encode s.humidity s.temperatureC) = .ok s := by
  obtain ⟨raw, hparse, rfl⟩ := decode_eq_ok_iff.1 h
  refine ⟨encode_of_parse hparse, ?_, ?_⟩
  · intro hlength hstatus
    rw [encode_of_parse hparse]
    obtain ⟨status, b1, b2, b3, b4, b5, rest, rfl, -, -, -⟩ := parse_eq_ok_iff.1 hparse
    obtain rfl : rest = [] := by simpa using hlength
    obtain rfl : status = 0x1C := by simpa using hstatus
    rfl
  · rw [encode, RawSample.quantise_toSample, decode_ofRaw]

/-- The top of the humidity scale beside a temperature just above the middle of its own: the octet
that the two share is full on one side only. -/
theorem encode_decode_full_humidity :
    let octets : List UInt8 := [0x1C, 0xFF, 0xFF, 0xF8, 0x00, 0x01, 0x85]
    let s := RawSample.toSample ⟨0xFFFFF, 0x80001⟩
    decode octets = .ok s ∧ encode s.humidity s.temperatureC = octets ∧
      decode (encode s.humidity s.temperatureC) = .ok s := by
  intro octets s
  have hparse : parse octets = .ok ⟨0xFFFFF, 0x80001⟩ :=
    parse_eq_ok_iff.2 ⟨0x1C, 0xFF, 0xFF, 0xF8, 0x00, 0x01, [], by decide +kernel, by decide,
      by decide, by decide⟩
  have hdecode : decode octets = .ok s := decode_eq_ok_iff.2 ⟨_, hparse, rfl⟩
  obtain ⟨-, hsame, hback⟩ := encode_decode hdecode
  exact ⟨hdecode, hsame rfl rfl, hback⟩

end Frame
end Hygrometer
