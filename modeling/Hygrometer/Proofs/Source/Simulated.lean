import Hygrometer.Proofs.Acquisition.Course
import Hygrometer.Proofs.Frame.RoundTrip
import Hygrometer.Source

/-!
# The simulated board always answers

On the board of a configuration every step of an acquisition succeeds: the board answers at the
address it is asked at, its frame decodes, and its light sample is cut to twelve bits. Nothing here
needs the configuration to be valid, so no source that a configuration selects ever fails
(`exists_answer_ofConfig`).

**The acquisition is the one that runs on a device.** A simulated source is no shortcut to a
reading: its board is hardware without a state, the session makes its calls, and the frame that
comes back is decoded with its checksum. So what is proved of acquisitions on any hardware is true
here as well, and this file only has to say that this hardware does not fail (`measure_ofAmbient`,
`Acquisition.light_of_fitting`).

The reading that comes out is named (`Board.reading`). It depends on the conditions, the pin and the
time, and not on how often the source was asked (`simulated_answer`).
-/

namespace Hygrometer

/-! ### The light of a pin -/

namespace Light

/-- The light that a pin shows of a sample: none without an analogue input. -/
def shown (pin : UInt8) (sample : UInt16) : UInt16 :=
  if (input? pin).isNone then 0 else sample

theorem shown_of_not_input {pin : UInt8} (hpin : ¬ (26 ≤ pin ∧ pin ≤ 29)) (sample : UInt16) :
    shown pin sample = 0 := if_pos (isNone_input?_iff.2 hpin)

theorem shown_of_input {pin : UInt8} (hpin : 26 ≤ pin ∧ pin ≤ 29) (sample : UInt16) :
    shown pin sample = sample := if_neg fun h ↦ isNone_input?_iff.1 h hpin

end Light

/-- Light that fits in twelve bits is reported as the pin shows it. -/
theorem Acquisition.light_of_fitting {σ : Type} {hw : Hardware σ} {pin : UInt8} {state sampled : σ}
    {raw : UInt16} (hsample : hw.sample pin state = (.ok raw, sampled)) (hraw : raw ≤ 4095) :
    ((light hw pin).run state).result = .ok (Light.shown pin raw) := by
  by_cases hpin : 26 ≤ pin ∧ pin ≤ 29
  · rw [light_of_le hpin hsample hraw, Light.shown_of_input hpin]
  · rw [light_of_not_input hpin, Light.shown_of_not_input hpin]

/-! ### The board and its sources -/

namespace Board

theorem hardware_write_trigger (b : Board) :
    b.hardware.write b.address Frame.trigger () = (.ok (), ()) := by
  show ((b.write b.address Frame.trigger).mapError _, ()) = _
  rw [write_trigger]
  rfl

theorem hardware_read_address (b : Board) (count : Nat) :
    b.hardware.read b.address count () = (.ok (b.frame.take count), ()) := by
  show ((b.read b.address count).mapError _, ()) = _
  rw [read_address]
  rfl

variable (address : UInt8) (ambient : Ambient)

/-- The simulated frame is read whole, and decodes to the quantised conditions. -/
theorem decode_frame_ofAmbient :
    Frame.decode ((ofAmbient address ambient).frame.take Frame.size) =
      .ok (RawSample.quantise ambient.humidity ambient.temperatureC).toSample := by
  have htake : (ofAmbient address ambient).frame.take Frame.size =
      Frame.ofRaw (.quantise ambient.humidity ambient.temperatureC) := rfl
  rw [htake, Frame.decode_ofRaw]

/-- A measurement on a simulated board gives the quantised conditions. -/
theorem measure_ofAmbient :
    (Acquisition.measure (ofAmbient address ambient).hardware address).run () =
      ⟨.ok (RawSample.quantise ambient.humidity ambient.temperatureC).toSample,
        [.write address Frame.trigger, .read address Frame.size], ()⟩ := by
  have hwrite := (ofAmbient address ambient).hardware_write_trigger
  have hread := (ofAmbient address ambient).hardware_read_address Frame.size
  refine (Acquisition.measure_of_read hwrite hread).trans ?_
  rw [decode_frame_ofAmbient]
  rfl

/-- The reading of a simulated board. -/
def reading (pin : UInt8) (now : UInt64) : Reading :=
  Acquisition.reading (RawSample.quantise ambient.humidity ambient.temperatureC).toSample
    (Light.shown pin (min ambient.lightRaw Light.maxSample)) now

/-- **A simulated board gives its reading**, whatever the conditions. -/
theorem acquire_ofAmbient (pin : UInt8) (now : UInt64) :
    ((Acquisition.acquire (ofAmbient address ambient).hardware address pin now).run ()).result =
      .ok (reading ambient pin now) := by
  -- The board cuts its sample to twelve bits, so it is never refused.
  have hlight : ((Acquisition.light (ofAmbient address ambient).hardware pin).run ()).result =
      .ok (Light.shown pin (min ambient.lightRaw Light.maxSample)) :=
    Acquisition.light_of_fitting rfl Std.min_le_right
  rw [Acquisition.acquire_of_measure now (measure_ofAmbient address ambient)]
  simp only [hlight]
  rfl

end Board

namespace Source

theorem simulated_answer (c : SourceConfig) (asked : Nat) (now : UInt64) :
    (simulated c).answer asked now = .ok (Board.reading c.ambient c.lightPin now) :=
  Board.acquire_ofAmbient c.address c.ambient c.lightPin now

/-- **No source that a configuration selects ever fails.** -/
theorem exists_answer_ofConfig (c : SourceConfig) (asked : Nat) (now : UInt64) :
    ∃ reading, (ofConfig c).answer asked now = .ok reading := by
  rw [ofConfig]
  cases c.kind with
  | stub => exact ⟨_, rfl⟩
  | simulated => exact ⟨_, simulated_answer c asked now⟩

theorem label_ofConfig (c : SourceConfig) : (ofConfig c).label = c.kind.name := by
  rw [ofConfig]
  cases c.kind <;> rfl

end Source
end Hygrometer
