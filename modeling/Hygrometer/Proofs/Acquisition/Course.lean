import Mathlib.Logic.Basic
import Hygrometer.Acquisition
import Hygrometer.Proofs.Session.Transcript

/-!
# How an acquisition goes

An acquisition asks for up to three things and can end after each of them. `Course` lists the ways
that it can go, each with the calls it makes, the answers it gets and the result it comes to, and
`course_acquire` says that there are no others, on any hardware in any state. What is true of every
acquisition is therefore a matter of seven cases, and nothing that is proved with them opens the
computation again.

**The course is a relation of what can be seen**: calls, answers and a result. The state of the
hardware is not in it, since it is no matter for whoever called, and this is why two runs with the
same answers go the same way.

The lemmas before it follow the computation. The measurement is a call that triggers it, a call that
fetches the frame, and the decoding of what came. The light is a sample, if the pin is an input of
the converter, and zero without any call if it is not. Each lemma gives the outcome of its part for
one way that the answers can turn out, with the state that is left, so that they can be put one
behind another (`acquire_of_measure`).
-/

namespace Hygrometer

namespace Light

/-- The pins with an analogue input are 26 to 29. -/
theorem isNone_input?_iff {pin : UInt8} :
    (input? pin).isNone = true ↔ ¬ (26 ≤ pin ∧ pin ≤ 29) := by
  by_cases h : 26 ≤ pin ∧ pin ≤ 29
  · have hsome : input? pin = some (pin - firstPin) := if_pos h
    simp [hsome, h]
  · have hnone : input? pin = none := if_neg h
    simp only [hnone, Option.isNone_none, h, not_false_eq_true]

theorem check_of_le {raw : UInt16} (h : raw ≤ 4095) : check raw = .ok raw :=
  if_neg (UInt16.not_lt.2 h)

theorem check_of_lt {raw : UInt16} (h : 4095 < raw) : check raw = .error ⟨raw⟩ := if_pos h

end Light

namespace Acquisition

variable {σ : Type} {hw : Hardware σ} {address pin : UInt8} {state triggered ready sampled : σ}
  {f : Failure} {octets : List UInt8} {sample : Sample} {raw : UInt16} {calls : List Call}

/-! ### The measurement -/

theorem measure_of_write_error
    (hwrite : hw.write address Frame.trigger state = (.error f, triggered)) :
    (measure hw address).run state = ⟨.error f, [.write address Frame.trigger], triggered⟩ := by
  rw [measure, Session.run_bind_of_error (f := f) (by simp [hwrite])]
  simp [hwrite]

theorem measure_of_read_error
    (hwrite : hw.write address Frame.trigger state = (.ok (), triggered))
    (hread : hw.read address Frame.size triggered = (.error f, ready)) :
    (measure hw address).run state =
      ⟨.error f, [.write address Frame.trigger, .read address Frame.size], ready⟩ := by
  rw [measure, Session.run_bind_of_ok (a := ()) (by simp [hwrite])]
  simp only [Session.run_write, hwrite]
  rw [Session.run_bind_of_error (f := f) (by simp [hread])]
  simp [hread]

/-- Octets that are read decide the measurement. -/
theorem measure_of_read
    (hwrite : hw.write address Frame.trigger state = (.ok (), triggered))
    (hread : hw.read address Frame.size triggered = (.ok octets, ready)) :
    (measure hw address).run state =
      ⟨(Frame.decode octets).mapError Frame.Fault.toFailure,
        [.write address Frame.trigger, .read address Frame.size], ready⟩ := by
  rw [measure, Session.run_bind_of_ok (a := ()) (by simp [hwrite])]
  simp only [Session.run_write, hwrite]
  rw [Session.run_bind_of_ok (a := octets) (by simp [hread])]
  simp only [Session.run_read, hread, lift]
  cases Frame.decode octets <;> rfl

/-! ### The light -/

theorem light_of_not_input (hpin : ¬ (26 ≤ pin ∧ pin ≤ 29)) :
    (light hw pin).run state = ⟨.ok 0, [], state⟩ := by
  rw [light, if_pos (Light.isNone_input?_iff.2 hpin)]
  rfl

theorem light_of_sample_error (hpin : 26 ≤ pin ∧ pin ≤ 29)
    (hsample : hw.sample pin state = (.error f, sampled)) :
    (light hw pin).run state = ⟨.error f, [.sample pin], sampled⟩ := by
  rw [light, if_neg fun h ↦ Light.isNone_input?_iff.1 h hpin,
    Session.run_bind_of_error (f := f) (by simp [hsample])]
  simp [hsample]

/-- A sample that is taken decides the light. -/
theorem light_of_sample (hpin : 26 ≤ pin ∧ pin ≤ 29)
    (hsample : hw.sample pin state = (.ok raw, sampled)) :
    (light hw pin).run state =
      ⟨(Light.check raw).mapError Light.OverRange.toFailure, [.sample pin], sampled⟩ := by
  rw [light, if_neg fun h ↦ Light.isNone_input?_iff.1 h hpin,
    Session.run_bind_of_ok (a := raw) (by simp [hsample])]
  simp only [Session.run_sample, hsample, lift]
  cases Light.check raw <;> rfl

theorem light_of_le (hpin : 26 ≤ pin ∧ pin ≤ 29)
    (hsample : hw.sample pin state = (.ok raw, sampled)) (hraw : raw ≤ 4095) :
    (light hw pin).run state = ⟨.ok raw, [.sample pin], sampled⟩ := by
  rw [light_of_sample hpin hsample, Light.check_of_le hraw]
  rfl

theorem light_of_lt (hpin : 26 ≤ pin ∧ pin ≤ 29)
    (hsample : hw.sample pin state = (.ok raw, sampled)) (hraw : 4095 < raw) :
    (light hw pin).run state =
      ⟨.error (Light.OverRange.toFailure ⟨raw⟩), [.sample pin], sampled⟩ := by
  rw [light_of_sample hpin hsample, Light.check_of_lt hraw]
  rfl

/-! ### The whole acquisition -/

theorem acquire_of_measure_error (now : UInt64)
    (hmeasure : (measure hw address).run state = ⟨.error f, calls, ready⟩) :
    (acquire hw address pin now).run state = ⟨.error f, calls, ready⟩ := by
  rw [acquire, Session.run_bind_of_error (f := f) (by rw [hmeasure]), hmeasure]

/-- A measurement that succeeds is followed by the light. -/
theorem acquire_of_measure (now : UInt64)
    (hmeasure : (measure hw address).run state = ⟨.ok sample, calls, ready⟩) :
    (acquire hw address pin now).run state =
      let lit := (light hw pin).run ready
      ⟨lit.result.map (reading sample · now), calls ++ lit.calls, lit.state⟩ := by
  rw [acquire, Session.run_bind_of_ok (a := sample) (by rw [hmeasure]), hmeasure]
  cases hlight : ((light hw pin).run ready).result with
  | error f =>
    rw [Session.run_bind_of_error hlight]
    simp [hlight, Except.map]
  | ok raw =>
    rw [Session.run_bind_of_ok hlight]
    simp [hlight, Except.map]

/-- The ways an acquisition can go: its calls, the answers to them, and its result. -/
inductive Course (address pin : UInt8) (now : UInt64) :
    List Call → List Answer → Except Failure Reading → Prop
  /-- The trigger is not taken. -/
  | notTriggered (f : Failure) :
    Course address pin now [.write address Frame.trigger] [.wrote (.error f)] (.error f)
  /-- Nothing is read back. -/
  | notRead (f : Failure) :
    Course address pin now [.write address Frame.trigger, .read address Frame.size]
      [.wrote (.ok ()), .got (.error f)] (.error f)
  /-- What is read back is no valid frame. -/
  | notDecoded {octets : List UInt8} {fault : Frame.Fault}
      (hdecode : Frame.decode octets = .error fault) :
    Course address pin now [.write address Frame.trigger, .read address Frame.size]
      [.wrote (.ok ()), .got (.ok octets)] (.error fault.toFailure)
  /-- The pin has no analogue input. -/
  | dark {octets : List UInt8} {sample : Sample} (hdecode : Frame.decode octets = .ok sample)
      (hpin : ¬ (26 ≤ pin ∧ pin ≤ 29)) :
    Course address pin now [.write address Frame.trigger, .read address Frame.size]
      [.wrote (.ok ()), .got (.ok octets)] (.ok (reading sample 0 now))
  /-- The light is not sampled. -/
  | notSampled {octets : List UInt8} {sample : Sample} (hdecode : Frame.decode octets = .ok sample)
      (hpin : 26 ≤ pin ∧ pin ≤ 29) (f : Failure) :
    Course address pin now [.write address Frame.trigger, .read address Frame.size, .sample pin]
      [.wrote (.ok ()), .got (.ok octets), .sampled (.error f)] (.error f)
  /-- The sample has more than twelve bits. -/
  | overRange {octets : List UInt8} {sample : Sample} {raw : UInt16}
      (hdecode : Frame.decode octets = .ok sample) (hpin : 26 ≤ pin ∧ pin ≤ 29)
      (hraw : 4095 < raw) :
    Course address pin now [.write address Frame.trigger, .read address Frame.size, .sample pin]
      [.wrote (.ok ()), .got (.ok octets), .sampled (.ok raw)]
      (.error (Light.OverRange.toFailure ⟨raw⟩))
  /-- Everything succeeds. -/
  | complete {octets : List UInt8} {sample : Sample} {raw : UInt16}
      (hdecode : Frame.decode octets = .ok sample) (hpin : 26 ≤ pin ∧ pin ≤ 29)
      (hraw : raw ≤ 4095) :
    Course address pin now [.write address Frame.trigger, .read address Frame.size, .sample pin]
      [.wrote (.ok ()), .got (.ok octets), .sampled (.ok raw)] (.ok (reading sample raw now))

/-- **Every acquisition goes one of these ways**, whatever the hardware and its state. -/
theorem course_acquire (hw : Hardware σ) (address pin : UInt8) (now : UInt64) (state : σ) :
    let outcome := (acquire hw address pin now).run state
    Course address pin now outcome.calls (hw.answers outcome.calls state).1 outcome.result := by
  rcases hwrite : hw.write address Frame.trigger state with ⟨f | ⟨⟩, triggered⟩
  · rw [acquire_of_measure_error now (measure_of_write_error hwrite)]
    simpa [hwrite] using Course.notTriggered f
  rcases hread : hw.read address Frame.size triggered with ⟨f | octets, ready⟩
  · rw [acquire_of_measure_error now (measure_of_read_error hwrite hread)]
    simpa [hwrite, hread] using Course.notRead f
  have hmeasure := measure_of_read hwrite hread
  cases hdecode : Frame.decode octets with
  | error fault =>
    rw [hdecode] at hmeasure
    rw [acquire_of_measure_error now hmeasure]
    simpa [hwrite, hread] using Course.notDecoded hdecode
  | ok sample =>
    rw [hdecode] at hmeasure
    rw [acquire_of_measure now hmeasure]
    by_cases hpin : 26 ≤ pin ∧ pin ≤ 29
    · rcases hsample : hw.sample pin ready with ⟨f | raw, sampled⟩
      · rw [light_of_sample_error hpin hsample]
        simpa [hwrite, hread, hsample, Except.map] using Course.notSampled hdecode hpin f
      · rcases UInt16.lt_or_le 4095 raw with hraw | hraw
        · rw [light_of_lt hpin hsample hraw]
          simpa [hwrite, hread, hsample, Except.map] using Course.overRange hdecode hpin hraw
        · rw [light_of_le hpin hsample hraw]
          simpa [hwrite, hread, hsample, Except.map] using Course.complete hdecode hpin hraw
    · rw [light_of_not_input hpin]
      simpa [hwrite, hread, Except.map] using Course.dark hdecode hpin

end Acquisition
end Hygrometer
