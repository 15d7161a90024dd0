import Hygrometer.Proofs.Checksum.Linear
import Hygrometer.Proofs.Frame.Scale

/-!
# What a frame says

The format of a frame is a matter of its bits, counted from the most significant one of the first
octet: the first is set while the sensor is busy, the fifth once it is calibrated, and from the
ninth on there are two numbers of twenty bits, the humidity and the temperature. `field` reads a
number out of the bits, so that a statement about a frame can be compared with the format without
shifts and masks. The raw values that are cut out of the octets are these numbers (`field_humidity`,
`field_temperature`). They share an octet, of which each has one half; that is the one place where
octets do not suffice and its bits are cut (`bits_cons_six`).

**What goes wrong first.** Octets can be too few, busy, uncalibrated and corrupt at once. They are
looked at in that order, and nothing after the seventh octet is looked at. There is one lemma for
each outcome, which takes the checks before its own as passed, and `decode_classifies` puts them
together with the texts of the failures. Its cases exclude each other and leave nothing out, so it
says what any list of octets decodes to.

**What decodes** is a measurement with the two numbers of the frame on their scales
(`exists_raw_of_decode`), exactly as rationals. Twenty bits cannot express anything outside of the
scales, so it is in the sensor's range whatever the octets were.
-/

namespace Hygrometer.Frame

open Checksum (bits octetBits)
open Text (numeral hexByte)

/-! ### Numbers in bits -/

/-- The number that bits write in base two, most significant first. -/
def natOfBits (bits : List Bool) : ℕ := bits.foldl (fun n bit ↦ 2 * n + bit.toNat) 0

/-- Bits are shifted by those that follow them. -/
theorem natOfBits_append (xs ys : List Bool) :
    natOfBits (xs ++ ys) = natOfBits xs * 2 ^ ys.length + natOfBits ys := by
  induction ys using List.reverseRecOn with
  | nil => simp [natOfBits]
  | append_singleton ys y ih =>
    have hlast (zs : List Bool) : natOfBits (zs ++ [y]) = 2 * natOfBits zs + y.toNat := by
      simp [natOfBits]
    rw [← List.append_assoc, hlast, hlast, ih, List.length_append, List.length_singleton, pow_succ]
    ring

/-- Some bits of a number, the last of them at place `j`. -/
theorem natOfBits_map_testBit (n j k : ℕ) :
    natOfBits ((List.range k).map fun i ↦ n.testBit (j + k - 1 - i)) = n / 2 ^ j % 2 ^ k := by
  induction k generalizing j with
  | zero => simp [natOfBits, Nat.mod_one]
  | succ k ih =>
    have hfront : ((List.range k).map fun i ↦ n.testBit (j + (k + 1) - 1 - i)) =
        (List.range k).map fun i ↦ n.testBit (j + 1 + k - 1 - i) := by
      rw [Nat.add_assoc j 1 k, Nat.add_comm 1 k]
    have hlast : j + (k + 1) - 1 - k = j := by omega
    have hbit : natOfBits [n.testBit j] = n / 2 ^ j % 2 := by
      rw [← Nat.toNat_testBit]
      simp [natOfBits]
    rw [List.range_succ, List.map_append, natOfBits_append, hfront, ih, List.map_singleton, hlast,
      hbit, List.length_singleton, pow_one, pow_succ, ← Nat.div_div_eq_div_mul, pow_succ',
      Nat.mod_mul]
    omega

/-- An octet is the number in its bits. -/
theorem natOfBits_octetBits (octet : UInt8) : natOfBits (octetBits octet) = octet.toNat :=
  (natOfBits_map_testBit octet.toNat 0 8).trans
    (by rw [pow_zero, Nat.div_one, Nat.mod_eq_of_lt octet.toNat_lt])

/-- The upper half of an octet. -/
theorem natOfBits_take_octetBits (octet : UInt8) :
    natOfBits ((octetBits octet).take 4) = octet.toNat / 0x10 := by
  have hlt := octet.toNat_lt
  exact (natOfBits_map_testBit octet.toNat 4 4).trans (Nat.mod_eq_of_lt (by omega))

/-- The lower half of an octet. -/
theorem natOfBits_drop_octetBits (octet : UInt8) :
    natOfBits ((octetBits octet).drop 4) = octet.toNat % 0x10 := by
  have h := natOfBits_map_testBit octet.toNat 0 4
  rwa [pow_zero, Nat.div_one] at h

/-! ### Fields -/

/-- The number in `count` bits of a text from bit `start` on. -/
def field (octets : List UInt8) (start count : ℕ) : ℕ :=
  natOfBits (((bits octets).drop start).take count)

variable (status b1 b2 b3 b4 b5 : UInt8) (rest : List UInt8)

/-- The bits of a frame, with the octet that the two numbers share cut in half. -/
theorem bits_cons_six :
    bits (status :: b1 :: b2 :: b3 :: b4 :: b5 :: rest) =
      octetBits status ++ (octetBits b1 ++ octetBits b2 ++ (octetBits b3).take 4) ++
        ((octetBits b3).drop 4 ++ octetBits b4 ++ octetBits b5) ++ bits rest := by
  have hhalves := List.take_append_drop 4 (octetBits b3)
  simp only [Checksum.bits_cons, List.append_assoc]
  rw [← List.append_assoc ((octetBits b3).take 4), hhalves]

/-- **The raw humidity is the number in twenty bits from the ninth on.** -/
theorem field_humidity :
    field (status :: b1 :: b2 :: b3 :: b4 :: b5 :: rest) 8 20 =
      (RawSample.ofOctets b1 b2 b3 b4 b5).humidity := by
  have hfield : field (status :: b1 :: b2 :: b3 :: b4 :: b5 :: rest) 8 20 =
      natOfBits (octetBits b1 ++ octetBits b2 ++ (octetBits b3).take 4) := by
    rw [field, bits_cons_six, List.append_assoc, List.append_assoc, List.drop_left' (by simp),
      List.take_left' (by simp)]
  have h1 := b1.toNat_lt
  have h2 := b2.toNat_lt
  have h3 := b3.toNat_lt
  have hlength : ((octetBits b3).take 4).length = 4 := by simp
  rw [hfield, natOfBits_append, natOfBits_append, natOfBits_octetBits, natOfBits_octetBits,
    natOfBits_take_octetBits, hlength, Checksum.length_octetBits]
  simp only [RawSample.ofOctets, Fin.val_ofNat, rawScale]
  omega

/-- **The raw temperature is the number in the twenty bits behind it.** -/
theorem field_temperature :
    field (status :: b1 :: b2 :: b3 :: b4 :: b5 :: rest) 28 20 =
      (RawSample.ofOctets b1 b2 b3 b4 b5).temperature := by
  have hfield : field (status :: b1 :: b2 :: b3 :: b4 :: b5 :: rest) 28 20 =
      natOfBits ((octetBits b3).drop 4 ++ octetBits b4 ++ octetBits b5) := by
    rw [field, bits_cons_six, List.append_assoc (octetBits status ++ _), List.drop_left' (by simp),
      List.take_left' (by simp)]
  have h3 := b3.toNat_lt
  have h4 := b4.toNat_lt
  have h5 := b5.toNat_lt
  rw [hfield, natOfBits_append, natOfBits_append, natOfBits_octetBits, natOfBits_octetBits,
    natOfBits_drop_octetBits, Checksum.length_octetBits, Checksum.length_octetBits]
  simp only [RawSample.ofOctets, Fin.val_ofNat, rawScale]
  omega

/-! ### The order of the checks -/

/-- The sensor is busy while the first bit is set. -/
theorem isBusy_eq_testBit : isBusy status = status.toNat.testBit 7 :=
  Bool.eq_iff_iff.2 (decide_eq_true_iff.trans (Checksum.and_ne_zero_iff status rfl))

/-- It is calibrated once the fifth is. -/
theorem isCalibrated_eq_testBit : isCalibrated status = status.toNat.testBit 3 :=
  Bool.eq_iff_iff.2 (decide_eq_true_iff.trans (Checksum.and_ne_zero_iff status rfl))

theorem decode_of_parse_error {octets : List UInt8} {fault : Fault}
    (h : parse octets = .error fault) : decode octets = .error fault := by
  rw [decode, h]
  rfl

/-- Fewer than seven octets are too short. -/
theorem decode_of_length_lt {octets : List UInt8} (h : octets.length < 7) :
    decode octets = .error (.tooShort octets.length) := by
  refine decode_of_parse_error ?_
  unfold parse
  split
  · simp only [List.length_cons] at h
    omega
  · rfl

section Seven

-- Of the octets only the status and the checksum have a say in what fails.
variable {status b1 b2 b3 b4 b5 checksum : UInt8} {rest : List UInt8}

/-- Seven octets of a busy sensor are refused whatever they say. -/
theorem decode_of_busy (hbusy : isBusy status = true) :
    decode (status :: b1 :: b2 :: b3 :: b4 :: b5 :: checksum :: rest) = .error .busy :=
  decode_of_parse_error (if_pos hbusy)

/-- So are those of an uncalibrated one. -/
theorem decode_of_uncalibrated (hbusy : isBusy status = false)
    (hcalibrated : isCalibrated status = false) :
    decode (status :: b1 :: b2 :: b3 :: b4 :: b5 :: checksum :: rest) = .error .uncalibrated :=
  decode_of_parse_error (by simp [parse, hbusy, hcalibrated])

/-- Else the checksum decides. -/
theorem decode_of_corrupt (hbusy : isBusy status = false)
    (hcalibrated : isCalibrated status = true)
    (hchecksum : checksum ≠ Checksum.crc8 [status, b1, b2, b3, b4, b5]) :
    decode (status :: b1 :: b2 :: b3 :: b4 :: b5 :: checksum :: rest) =
      .error (.corrupt checksum (Checksum.crc8 [status, b1, b2, b3, b4, b5])) :=
  decode_of_parse_error (by simp [parse, hbusy, hcalibrated, hchecksum.symm])

end Seven

/-- What decodes is a measurement with the two numbers of the frame. -/
theorem exists_raw_of_decode {octets : List UInt8} {s : Sample} (h : decode octets = .ok s) :
    ∃ raw : RawSample, s = raw.toSample ∧ raw.humidity = field octets 8 20 ∧
      raw.temperature = field octets 28 20 := by
  obtain ⟨raw, hparse, rfl⟩ := decode_eq_ok_iff.1 h
  obtain ⟨status, b1, b2, b3, b4, b5, rest, rfl, -, -, rfl⟩ := parse_eq_ok_iff.1 hparse
  exact ⟨_, rfl, (field_humidity ..).symm, (field_temperature ..).symm⟩

theorem exists_eq_cons_of_le_length {octets : List UInt8} (h : 7 ≤ octets.length) :
    ∃ status b1 b2 b3 b4 b5 checksum rest,
      octets = status :: b1 :: b2 :: b3 :: b4 :: b5 :: checksum :: rest := by
  match octets, h with
  | status :: b1 :: b2 :: b3 :: b4 :: b5 :: checksum :: rest, _ =>
    exact ⟨status, b1, b2, b3, b4, b5, checksum, rest, rfl⟩

/-- **What octets decode to.** Fewer than seven are too short. Of seven or more only the first seven
count: they are busy if bit 7 of the status is set, else uncalibrated if its bit 3 is clear, in both
cases whatever the checksum is; else corrupt if the seventh is not the checksum of the six before
it; else they hold a humidity and a temperature, which are the two numbers of twenty bits on their
scales. So what decodes at all is in the sensor's range. -/
theorem decode_classifies (octets : List UInt8) :
    (octets.length < 7 →
      (decode octets).mapError Fault.toFailure = .error
        ⟨.malformedPayload, "dht20 frame too short: " ++ numeral octets.length ++ " bytes"⟩) ∧
    (∀ _ : 7 ≤ octets.length,
      let status := octets[0].toNat
      let received := octets[6]
      let computed := Checksum.crc8 (octets.take 6)
      (∀ rest, decode (octets.take 7 ++ rest) = decode octets) ∧
      (status.testBit 7 = true →
        (decode octets).mapError Fault.toFailure = .error
          ⟨.sensorUnavailable, "dht20 busy, measurement not ready"⟩) ∧
      (status.testBit 7 = false → status.testBit 3 = false →
        (decode octets).mapError Fault.toFailure = .error
          ⟨.sensorUnavailable, "dht20 not calibrated"⟩) ∧
      (status.testBit 7 = false → status.testBit 3 = true → received ≠ computed →
        (decode octets).mapError Fault.toFailure = .error
          ⟨.malformedPayload, "dht20 crc mismatch: got 0x" ++ hexByte received ++
            ", expected 0x" ++ hexByte computed⟩) ∧
      (status.testBit 7 = false → status.testBit 3 = true → received = computed →
        ∃ s, decode octets = .ok s ∧
          s.humidity.value? = some ((field octets 8 20 : ℚ) * 100 / 2 ^ 20) ∧
          s.temperatureC.value? = some ((field octets 28 20 : ℚ) * 200 / 2 ^ 20 - 50))) ∧
    (∀ s, decode octets = .ok s →
      ∃ h t, s.humidity.value? = some h ∧ 0 ≤ h ∧ h < 100 ∧
        s.temperatureC.value? = some t ∧ -50 ≤ t ∧ t < 150) := by
  refine ⟨?_, ?_, ?_⟩
  · intro h
    rw [decode_of_length_lt h]
    rfl
  · intro h
    obtain ⟨status, b1, b2, b3, b4, b5, checksum, rest, rfl⟩ := exists_eq_cons_of_le_length h
    simp only [List.getElem_cons_zero, List.getElem_cons_succ, List.take_succ_cons, List.take_zero,
      ← isBusy_eq_testBit, ← isCalibrated_eq_testBit]
    -- One goal for what follows the seventh octet, and one for each outcome.
    refine ⟨fun _ ↦ rfl, ?_, ?_, ?_, ?_⟩
    · intro hbusy
      rw [decode_of_busy hbusy]
      rfl
    · intro hbusy hcalibrated
      rw [decode_of_uncalibrated hbusy hcalibrated]
      rfl
    · intro hbusy hcalibrated hchecksum
      rw [decode_of_corrupt hbusy hcalibrated hchecksum]
      rfl
    · rintro hbusy hcalibrated rfl
      have hparse := parse_eq_ok_iff.2
        ⟨status, b1, b2, b3, b4, b5, rest, rfl, hbusy, hcalibrated, rfl⟩
      have hdecode := decode_eq_ok_iff.2 ⟨_, hparse, rfl⟩
      obtain ⟨raw, hraw, hhumidity, htemperature⟩ := exists_raw_of_decode hdecode
      refine ⟨_, hdecode, ?_, ?_⟩
      · rw [hraw, raw.value?_humidity_eq_percent, ← hhumidity]
        rfl
      · rw [hraw, raw.value?_temperatureC_eq_celsius, ← htemperature]
        rfl
  · intro s hs
    obtain ⟨raw, rfl, -⟩ := exists_raw_of_decode hs
    obtain ⟨hpercent, hpercent'⟩ := raw.percent_bounds
    obtain ⟨hcelsius, hcelsius'⟩ := raw.celsius_bounds
    exact ⟨raw.percent, raw.celsius, raw.value?_humidity_eq_percent, hpercent, by linarith,
      raw.value?_temperatureC_eq_celsius, hcelsius, by linarith⟩

/-- A frame that is busy, uncalibrated and corrupt at once counts as busy. With the status of a
ready, calibrated sensor instead, and nothing else changed, it counts as corrupt. -/
theorem decode_classifies_overlap :
    (decode [0xF7, 0, 0, 0, 0, 0, 0, 0xFF]).mapError Fault.toFailure =
      .error ⟨.sensorUnavailable, "dht20 busy, measurement not ready"⟩ ∧
    (decode [0x08, 0, 0, 0, 0, 0, 0, 0xFF]).mapError Fault.toFailure =
      .error ⟨.malformedPayload, "dht20 crc mismatch: got 0x00, expected 0x" ++
        hexByte (Checksum.crc8 [0x08, 0, 0, 0, 0, 0])⟩ := by
  obtain ⟨-, hbusy, -⟩ := decode_classifies [0xF7, 0, 0, 0, 0, 0, 0, 0xFF]
  obtain ⟨-, hcorrupt, -⟩ := decode_classifies [0x08, 0, 0, 0, 0, 0, 0, 0xFF]
  obtain ⟨-, hbusy, -⟩ := hbusy (by decide)
  obtain ⟨-, -, -, hcorrupt, -⟩ := hcorrupt (by decide)
  exact ⟨hbusy (by decide), hcorrupt (by decide) (by decide) (by decide +kernel)⟩

end Hygrometer.Frame
