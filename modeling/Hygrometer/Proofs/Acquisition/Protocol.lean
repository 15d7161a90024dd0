import Hygrometer.Proofs.Acquisition.Course
import Hygrometer.Source

/-!
# The protocol of an acquisition

An acquisition makes its calls in a fixed order, each at most once, and none after a step that
failed: it writes the trigger, reads a frame, and samples the light if the pin has an input. Its
result is the failure of the step that failed, or a reading. `Course` lists the ways in which this
can go, with the calls and the answers of each, so that every statement about an acquisition is a
case analysis on them (`Course.calls_prefix` and the lemmas after it): that the calls are a
beginning of the three, when a frame is read and when a sample is taken, and what each failure makes
of the result.

**What it depends on.** An acquisition is composed of calls, so it is faithful and mirrors itself on
all hardware (`isFaithful_acquire`, `mirrors_acquire`): what the hardware answers to its calls is
all that it depends on. The lemmas follow its parts, measurement and light, and each is the
composition of those of the parts.

**Acquisitions in a row** (`Device.latests`) share the state of the hardware and nothing else. So
the protocol holds of each of them, from the state that the calls of those before it leave
(`latests_follow_protocol`). The theorem says it for any number of them and any position in the row,
any hardware with any state, and any address and pin: its calls are a beginning of the three, its
result is what the answers to its own calls make it, and on other hardware that answers these calls
alike it has the same result.
-/

namespace Hygrometer

namespace Acquisition

/-! ### What every course has -/

namespace Course

variable {address pin : UInt8} {now : UInt64} {calls : List Call} {answers : List Answer}
  {result : Except Failure Reading}

/-- **The calls are a beginning of the three**, in their order. -/
theorem calls_prefix (h : Course address pin now calls answers result) :
    calls <+: [.write address Frame.trigger, .read address Frame.size, .sample pin] := by
  cases h <;> simp

/-- The trigger is always written. -/
theorem write_mem (h : Course address pin now calls answers result) :
    .write address Frame.trigger ∈ calls := by
  cases h <;> simp

/-- The frame is read exactly if the trigger is taken. -/
theorem read_mem_iff (h : Course address pin now calls answers result) :
    .read address Frame.size ∈ calls ↔ .wrote (.ok ()) ∈ answers := by
  cases h <;> simp

/-- The light is sampled exactly if the frame decodes and the pin has an input. -/
theorem sample_mem_iff (h : Course address pin now calls answers result) :
    .sample pin ∈ calls ↔
      (∃ octets s, .got (.ok octets) ∈ answers ∧ Frame.decode octets = .ok s) ∧
        26 ≤ pin ∧ pin ≤ 29 := by
  cases h <;> simp_all

/-- A failure of the hardware is the result, as it is. -/
theorem result_of_failure (h : Course address pin now calls answers result) {f : Failure}
    (hf : .wrote (.error f) ∈ answers ∨ .got (.error f) ∈ answers ∨
      .sampled (.error f) ∈ answers) : result = .error f := by
  cases h <;> simp_all

/-- A frame that does not decode is the failure of the decoder. -/
theorem result_of_fault (h : Course address pin now calls answers result) {octets : List UInt8}
    {fault : Frame.Fault} (hgot : .got (.ok octets) ∈ answers)
    (hdecode : Frame.decode octets = .error fault) : result = .error fault.toFailure := by
  cases h <;> simp_all

/-- A sample of more than twelve bits is a failure. -/
theorem result_of_lt (h : Course address pin now calls answers result) {raw : UInt16}
    (hsampled : .sampled (.ok raw) ∈ answers) (hraw : 4095 < raw) :
    result = .error (Light.OverRange.toFailure ⟨raw⟩) := by
  cases h with
  | complete _ _ hle =>
    obtain rfl : raw = _ := by simpa using hsampled
    exact absurd hle (UInt16.not_le.2 hraw)
  | _ => simp_all

/-- A pin without an input is dark, and no failure. -/
theorem result_of_not_input (h : Course address pin now calls answers result)
    {octets : List UInt8} {s : Sample} (hgot : .got (.ok octets) ∈ answers)
    (hdecode : Frame.decode octets = .ok s) (hpin : ¬ (26 ≤ pin ∧ pin ≤ 29)) :
    result = .ok (reading s 0 now) := by
  cases h <;> simp_all

/-- Otherwise there is a reading of what the frame decodes to and of the sample. -/
theorem result_of_le (h : Course address pin now calls answers result)
    {octets : List UInt8} {s : Sample} {raw : UInt16} (hgot : .got (.ok octets) ∈ answers)
    (hdecode : Frame.decode octets = .ok s) (hsampled : .sampled (.ok raw) ∈ answers)
    (hraw : raw ≤ 4095) : result = .ok (reading s raw now) := by
  cases h with
  | overRange _ _ hlt =>
    obtain rfl : raw = _ := by simpa using hsampled
    exact absurd hlt (UInt16.not_lt.2 hraw)
  | _ => simp_all

end Course

/-! ### What an acquisition depends on -/

variable {σ τ ε α : Type} {hw : Hardware σ} {hw' : Hardware τ} (address pin : UInt8) (now : UInt64)

/-- A result that is lifted calls nothing. -/
theorem isFaithful_lift (toFailure : ε → Failure) (result : Except ε α) :
    Session.IsFaithful hw (lift toFailure result) := Session.isFaithful_ofExcept _

/-- So it is the same on any hardware. -/
theorem mirrors_lift (toFailure : ε → Failure) (result : Except ε α) :
    Session.Mirrors hw hw' (lift toFailure result) (lift toFailure result) :=
  Session.mirrors_ofExcept _

/-- A measurement is a write, a read and a result. -/
theorem isFaithful_measure : Session.IsFaithful hw (measure hw address) :=
  (Session.isFaithful_write address Frame.trigger).bind fun _ ↦
    (Session.isFaithful_read address Frame.size).bind fun _ ↦ isFaithful_lift _ _

/-- The light is a sample and a result, or a result alone. -/
theorem isFaithful_light : Session.IsFaithful hw (light hw pin) := by
  rw [light]
  split
  · exact Session.isFaithful_pure 0
  · exact (Session.isFaithful_sample pin).bind fun _ ↦ isFaithful_lift _ _

/-- **An acquisition calls nothing but what it reports.** -/
theorem isFaithful_acquire : Session.IsFaithful hw (acquire hw address pin now) :=
  (isFaithful_measure address).bind fun _ ↦ (isFaithful_light pin).bind fun _ ↦
    Session.isFaithful_pure _

/-- A measurement depends on what its write and its read are answered. -/
theorem mirrors_measure : Session.Mirrors hw hw' (measure hw address) (measure hw' address) := by
  have hread : Session.Mirrors hw hw'
      (do lift Frame.Fault.toFailure (Frame.decode (← .read hw address Frame.size)))
      (do lift Frame.Fault.toFailure (Frame.decode (← .read hw' address Frame.size))) :=
    (Session.mirrors_read address Frame.size).bind (fun _ ↦ mirrors_lift _ _)
      (Session.isFaithful_read _ _) (Session.isFaithful_read _ _)
  exact (Session.mirrors_write address Frame.trigger).bind (fun _ ↦ hread)
    (Session.isFaithful_write _ _) (Session.isFaithful_write _ _)

/-- The light depends on what its sample is answered. -/
theorem mirrors_light : Session.Mirrors hw hw' (light hw pin) (light hw' pin) := by
  rw [light, light]
  split
  · exact Session.mirrors_pure 0
  · exact (Session.mirrors_sample pin).bind (fun _ ↦ mirrors_lift _ _)
      (Session.isFaithful_sample _) (Session.isFaithful_sample _)

/-- **An acquisition depends on the answers to its calls only.** -/
theorem mirrors_acquire :
    Session.Mirrors hw hw' (acquire hw address pin now) (acquire hw' address pin now) :=
  (mirrors_measure address).bind
    (fun _ ↦ (mirrors_light pin).bind (fun _ ↦ Session.mirrors_pure _) (isFaithful_light pin)
      (isFaithful_light pin))
    (isFaithful_measure address) (isFaithful_measure address)

end Acquisition

/-! ### Acquisitions in a row -/

namespace Device

variable {σ : Type} (d : Device σ)

/-- Acquisitions at given times, each from the state that the one before it leaves, whatever came
of that. -/
def latests (d : Device σ) : List UInt64 → σ → List (Outcome σ Reading)
  | [], _ => []
  | now :: times, state =>
    let outcome := (d.latest now).run state
    outcome :: d.latests times outcome.state

/-- The state after calls that were made in acquisitions. -/
def stateAfter (outcomes : List (Outcome σ Reading)) (state : σ) : σ :=
  (d.hardware.answers (outcomes.flatMap (·.calls)) state).2

/-- An acquisition starts from the state that the calls of all those before it leave. -/
theorem getElem?_latests {times : List UInt64} {n : Nat} {now : UInt64} (hn : times[n]? = some now)
    (state : σ) :
    (d.latests times state)[n]? =
      some ((d.latest now).run (d.stateAfter ((d.latests times state).take n) state)) := by
  induction times generalizing n state with
  | nil => cases hn
  | cons first times ih =>
    cases n with
    | zero =>
      obtain rfl : first = now := by simpa using hn
      rfl
    | succ n =>
      -- The first acquisition is faithful: what it leaves, its calls leave.
      have hfirst : ((d.latest first).run state).state =
          (d.hardware.answers ((d.latest first).run state).calls state).2 :=
        Acquisition.isFaithful_acquire d.address d.lightPin first state
      have hafter (outcomes : List (Outcome σ Reading)) :
          d.stateAfter ((d.latest first).run state :: outcomes) state =
            d.stateAfter outcomes ((d.latest first).run state).state := by
        rw [stateAfter, List.flatMap_cons, Hardware.answers_append, stateAfter, hfirst]
      rw [latests, List.getElem?_cons_succ, List.take_succ_cons, hafter]
      exact ih hn _

/-- **Every acquisition follows the protocol.** Among acquisitions in a row take any one, made at
`now`. It starts from the state that the calls of those before it leave, and it makes three calls at
most, in this order and none twice: the trigger always; the read exactly if the trigger is taken;
the sample exactly if what is read decodes and the pin is one of 26 to 29. It leaves the state that
these calls leave. A failure of the hardware, a frame that does not decode and a sample of more than
twelve bits are its result; else its result is the reading. And on other hardware, in whatever state
and after whatever acquisitions, the same answers to these calls make it go the same way. -/
theorem latests_follow_protocol (state : σ) (times : List UInt64) {n : Nat} {now : UInt64}
    (hn : times[n]? = some now) :
    ∃ before outcome,
      before = d.stateAfter ((d.latests times state).take n) state ∧
      (d.latests times state)[n]? = some outcome ∧
      outcome.state = (d.hardware.answers outcome.calls before).2 ∧
      let answers := (d.hardware.answers outcome.calls before).1
      outcome.calls <+:
        [.write d.address [0xAC, 0x33, 0x00], .read d.address 7, .sample d.lightPin] ∧
      .write d.address [0xAC, 0x33, 0x00] ∈ outcome.calls ∧
      (.read d.address 7 ∈ outcome.calls ↔ .wrote (.ok ()) ∈ answers) ∧
      (.sample d.lightPin ∈ outcome.calls ↔
        (∃ octets s, .got (.ok octets) ∈ answers ∧ Frame.decode octets = .ok s) ∧
          26 ≤ d.lightPin ∧ d.lightPin ≤ 29) ∧
      (∀ f, .wrote (.error f) ∈ answers ∨ .got (.error f) ∈ answers ∨
        .sampled (.error f) ∈ answers → outcome.result = .error f) ∧
      (∀ octets fault, .got (.ok octets) ∈ answers → Frame.decode octets = .error fault →
        outcome.result = .error fault.toFailure) ∧
      (∀ raw, .sampled (.ok raw) ∈ answers → 4095 < raw →
        outcome.result = .error ⟨.malformedPayload,
          "adc sample " ++ Text.numeral raw.toNat ++ " exceeds 12 bits"⟩) ∧
      (∀ octets s, .got (.ok octets) ∈ answers → Frame.decode octets = .ok s →
        (¬ (26 ≤ d.lightPin ∧ d.lightPin ≤ 29) →
          outcome.result = .ok (Acquisition.reading s 0 now)) ∧
        (∀ raw, .sampled (.ok raw) ∈ answers → raw ≤ 4095 →
          outcome.result = .ok (Acquisition.reading s raw now))) ∧
      (∀ (τ : Type) (e : Device τ) (other : τ), e.address = d.address → e.lightPin = d.lightPin →
        (e.hardware.answers outcome.calls other).1 = answers →
        ((e.latest now).run other).calls = outcome.calls ∧
          ((e.latest now).run other).result = outcome.result) := by
  refine ⟨_, _, rfl, d.getElem?_latests hn state, ?_⟩
  -- The calls before this one show in the state of the hardware and nowhere else.
  generalize d.stateAfter ((d.latests times state).take n) state = before
  have hcourse := Acquisition.course_acquire d.hardware d.address d.lightPin now before
  refine ⟨Acquisition.isFaithful_acquire d.address d.lightPin now before, hcourse.calls_prefix,
    hcourse.write_mem, hcourse.read_mem_iff, hcourse.sample_mem_iff,
    fun f hf ↦ hcourse.result_of_failure hf,
    fun octets fault hgot hdecode ↦ hcourse.result_of_fault hgot hdecode,
    fun raw hsampled hraw ↦ hcourse.result_of_lt hsampled hraw, ?_, ?_⟩
  · intro octets s hgot hdecode
    exact ⟨fun hpin ↦ hcourse.result_of_not_input hgot hdecode hpin,
      fun raw hsampled hraw ↦ hcourse.result_of_le hgot hdecode hsampled hraw⟩
  · intro τ e other haddress hpin hanswers
    rw [latest, haddress, hpin]
    exact Acquisition.mirrors_acquire d.address d.lightPin now before other hanswers

/-- A sensor that misses its first trigger, beside a converter that gives more than twelve bits. -/
def drowsy : Device Nat where
  hardware :=
    { write := fun _ _ missed ↦
        (if missed = 0 then .error ⟨.sensorUnavailable, "no ack"⟩ else .ok (), missed + 1)
      read := fun _ count missed ↦
        (.ok ([0x1C, 0x80, 0x00, 0x06, 0x00, 0x00, 0x4E].take count), missed)
      sample := fun _ missed ↦ (.ok 5000, missed) }
  address := 0x38
  lightPin := 27

/-- A sensor that wakes up at the first acquisition gives a frame to the second, whose light is out
of range then. -/
theorem latests_follow_protocol_drowsy :
    ([10, 20] : List UInt64)[1]? = some 20 ∧
    ∃ outcome, (drowsy.latests [10, 20] 0)[1]? = some outcome ∧
      .sample 27 ∈ outcome.calls ∧
      outcome.result = .error ⟨.malformedPayload, "adc sample 5000 exceeds 12 bits"⟩ := by
  have hn : ([10, 20] : List UInt64)[1]? = some 20 := rfl
  refine ⟨hn, ?_⟩
  obtain ⟨before, outcome, hbefore, houtcome, -, -, -, -, -, -, -, hlarge, -⟩ :=
    drowsy.latests_follow_protocol 0 _ hn
  have hsame := drowsy.getElem?_latests hn 0
  rw [← hbefore, houtcome] at hsame
  obtain rfl : outcome = (drowsy.latest 20).run before := Option.some.inj hsame
  obtain rfl : before = 1 := hbefore.trans (by decide +kernel)
  have hcalls : ((drowsy.latest 20).run 1).calls =
      [.write 0x38 Frame.trigger, .read 0x38 7, .sample 27] := by
    decide +kernel
  have hsampled : .sampled (.ok 5000) ∈
      (drowsy.hardware.answers ((drowsy.latest 20).run 1).calls 1).1 := by
    rw [hcalls]
    exact List.mem_of_getElem? (i := 2) rfl
  have hresult := hlarge 5000 hsampled (by decide)
  have htext : "adc sample " ++ Text.numeral (5000 : UInt16).toNat ++ " exceeds 12 bits" =
      "adc sample 5000 exceeds 12 bits" := by
    decide +kernel
  rw [htext] at hresult
  exact ⟨_, houtcome, by simp [hcalls], hresult⟩

end Device
end Hygrometer
