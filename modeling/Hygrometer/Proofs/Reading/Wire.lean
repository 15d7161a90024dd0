import Hygrometer.Proofs.Acquisition.Plausible
import Hygrometer.Proofs.Json.Record

/-!
# Readings on the wire

A reading is written as an object with its five fields, each measurement as its shortest decimal.
Reading that text always succeeds when all measurements are finite, and gives the same time back;
but a measurement may come back one or two codes from the number that was written, since a decimal
is read with more than one rounding (`Json.IsReread`). Light is a whole number and comes back as it
is, and so does the reading of nothing.

**It is not always the same reading.** This befalls readings that a device gives
(`Reading.parse_toJson_ne`): their fractions of full scale have up to seventeen digits, which are
more than 53 bits, and are read with one rounding too many. There is a raw humidity for which it
happens, and the frame that has it decodes. So the statement for devices is a bound and not an
equality, and it is the best one: a device's measurement comes back at most one code away
(`Json.IsReread.close_of_fraction`), because it is a fraction over `2 ^ 20`. So its decimal has at
most twenty places, and the power of ten that scales it is exact: one rounding is left to lose by.

**The three kinds of sources** give readings that differ in what is known of their numbers. All of
them are finite (`isFinite_reading`), so all of them can be read back. What comes back is put
together in `Reading.parse_toJson`: the bound for any finite reading, the closer one for those of a
device, and equality for the stub.

A measurement that is no finite number is written as `null`, which no field of numbers accepts. So
the condition on readings is needed: with an infinity or not-a-number in it, a text is refused
(`exists_parse_toJson_eq_error`).
-/

namespace Hygrometer

open Json (IsReread)

/-! ### Fractions of full scale -/

/-- A fraction over `2 ^ 20` has at most 20 decimal places. -/
theorem Json.IsReread.close_of_fraction {x y : Binary64} (h : IsReread x y) {a : ℤ}
    (hx : x.value? = some (a / 2 ^ 20 : ℚ)) (ha : |a| < 2 ^ 90) : x.IsClose 1 y := by
  have habs : (|a| : ℤ) = (a.natAbs : ℚ) := by
    rw [← Int.natCast_natAbs, Int.cast_natCast]
  refine h.close_of_places _ (a.natAbs * 5 ^ 20 * 100) hx ?_ ?_
  · rw [abs_div, ← Int.cast_abs, abs_of_pos (by positivity : (0 : ℚ) < 2 ^ 20),
      div_lt_iff₀ (by positivity)]
    have hcast : ((|a| : ℤ) : ℚ) < 2 ^ 90 := by exact_mod_cast ha
    linarith
  · rw [abs_div, ← Int.cast_abs, habs, abs_of_pos (by positivity : (0 : ℚ) < 2 ^ 20)]
    push_cast
    norm_num
    ring

namespace RawSample

variable (raw : RawSample) {y : Binary64}

theorem natCast_lt (n : Fin rawScale) : ((n : ℕ) : ℤ) < 2 ^ 20 := by
  exact_mod_cast n.isLt

/-- A humidity comes back at most one code away. -/
theorem close_humidity (h : IsReread raw.toSample.humidity y) :
    raw.toSample.humidity.IsClose 1 y := by
  have hlt := natCast_lt raw.humidity
  refine h.close_of_fraction (a := raw.humidity * 100) ?_ (by rw [abs_lt]; omega)
  rw [raw.value?_humidity_eq_percent, percent]
  push_cast
  rfl

/-- So does a temperature. -/
theorem close_temperatureC (h : IsReread raw.toSample.temperatureC y) :
    raw.toSample.temperatureC.IsClose 1 y := by
  have hlt := natCast_lt raw.temperature
  refine h.close_of_fraction (a := raw.temperature * 200 - 50 * 2 ^ 20) ?_ (by rw [abs_lt]; omega)
  rw [raw.value?_temperatureC_eq_celsius, celsius]
  push_cast
  norm_num
  ring

/-- So does one in degrees Fahrenheit. -/
theorem close_fahrenheit (h : IsReread (fahrenheit raw.toSample.temperatureC) y) :
    (fahrenheit raw.toSample.temperatureC).IsClose 1 y := by
  have hlt := natCast_lt raw.temperature
  refine h.close_of_fraction (a := raw.temperature * 360 - 58 * 2 ^ 20) ?_ (by rw [abs_lt]; omega)
  rw [raw.value?_fahrenheit, degreesF]
  push_cast
  norm_num
  ring

end RawSample

namespace Reading

/-! ### The fields of a reading -/

/-- The names and values of the measurements, as they are on the wire. -/
def measurements (r : Reading) : List (String × Binary64) :=
  [("humidity", r.humidity), ("temperatureC", r.temperatureC), ("temperatureF", r.temperatureF),
    ("photores", r.light)]

/-- All measurements are finite numbers. -/
def IsFinite (r : Reading) : Prop := ∀ p ∈ r.measurements, p.2.isFinite = true

instance (r : Reading) : Decidable r.IsFinite := inferInstanceAs (Decidable (∀ p ∈ _, _))

/-- A reading is finite if its measurements are. -/
theorem isFinite_iff {r : Reading} : r.IsFinite ↔ r.humidity.isFinite = true ∧
    r.temperatureC.isFinite = true ∧ r.temperatureF.isFinite = true ∧ r.light.isFinite = true := by
  simp [IsFinite, measurements]

/-- The measurements are fields of numbers. -/
theorem lookup_fields {r : Reading} {p : String × Binary64} (h : p ∈ r.measurements) :
    shape.fields.lookup p.1 = some .number := by
  simp only [measurements, List.mem_cons, List.not_mem_nil, or_false] at h
  rcases h with rfl | rfl | rfl | rfl <;> rfl

/-- No two of them have one name. -/
theorem nodup_measurements (r : Reading) : (r.measurements.map Prod.fst).Nodup := by
  show ["humidity", "temperatureC", "temperatureF", "photores"].Nodup
  decide

/-- The members of the object that a reading is written as. -/
theorem toJson_eq (r : Reading) : r.toJson = Json.object
    (r.measurements.map (fun p ↦ (p.1, Json.writeNumber p.2)) ++
      [("ts", Text.numeral r.timestamp.toNat)]) := rfl

/-- What a reading is read back as: the same time, and measurements that are reread. -/
structure IsReread (r r' : Reading) : Prop where
  /-- The humidity is reread. -/
  humidity : Json.IsReread r.humidity r'.humidity
  /-- So are the degrees Celsius. -/
  temperatureC : Json.IsReread r.temperatureC r'.temperatureC
  /-- So are the degrees Fahrenheit. -/
  temperatureF : Json.IsReread r.temperatureF r'.temperatureF
  /-- So is the light. -/
  light : Json.IsReread r.light r'.light
  /-- The time is the same. -/
  timestamp : r'.timestamp = r.timestamp

/-- **A finite reading is read back.** -/
theorem exists_parse_toJson {r : Reading} (h : r.IsFinite) :
    ∃ r', parse r.toJson = .ok r' ∧ r.IsReread r' := by
  obtain ⟨hh, hc, hf, hl⟩ := isFinite_iff.1 h
  obtain ⟨y₁, hy₁, hread₁⟩ := Json.exists_readField_number hh
  obtain ⟨y₂, hy₂, hread₂⟩ := Json.exists_readField_number hc
  obtain ⟨y₃, hy₃, hread₃⟩ := Json.exists_readField_number hf
  obtain ⟨y₄, hy₄, hread₄⟩ := Json.exists_readField_number hl
  refine ⟨⟨y₁, y₂, y₃, y₄, r.timestamp⟩, ?_, hy₁, hy₂, hy₃, hy₄, rfl⟩
  have hparse : shape.parse r.toJson =
      .ok [.number y₁, .number y₂, .number y₃, .number y₄, .natural r.timestamp] := by
    let entries : List Json.Entry :=
      [("humidity", Json.writeNumber r.humidity, .number y₁),
        ("temperatureC", Json.writeNumber r.temperatureC, .number y₂),
        ("temperatureF", Json.writeNumber r.temperatureF, .number y₃),
        ("photores", Json.writeNumber r.light, .number y₄),
        ("ts", Text.numeral r.timestamp.toNat, .natural r.timestamp)]
    refine (Json.parse_object ?_ ?_ rfl : shape.parse (Json.object (Json.texts entries)) = _)
    · intro e he
      simp only [entries, List.mem_cons, List.not_mem_nil, or_false] at he
      rcases he with rfl | rfl | rfl | rfl | rfl
      · exact ⟨.number, rfl, hread₁⟩
      · exact ⟨.number, rfl, hread₂⟩
      · exact ⟨.number, rfl, hread₃⟩
      · exact ⟨.number, rfl, hread₄⟩
      · exact ⟨.natural, rfl, fun _ ↦ Json.readField_natural r.timestamp⟩
    · show ["humidity", "temperatureC", "temperatureF", "photores", "ts"].Nodup
      decide
  rw [parse, hparse]
  rfl

/-- Finite measurements are accepted, whichever they are. -/
theorem exists_entries {ms : List (String × Binary64)}
    (hfields : ∀ p ∈ ms, shape.fields.lookup p.1 = some .number)
    (hfinite : ∀ p ∈ ms, p.2.isFinite = true) :
    ∃ entries : List Json.Entry,
      Json.texts entries = ms.map (fun p ↦ (p.1, Json.writeNumber p.2)) ∧
      entries.map Prod.fst = ms.map Prod.fst ∧
      ∀ e ∈ entries, Json.IsAccepted shape e.1 e.2.1 e.2.2 := by
  induction ms with
  | nil => exact ⟨[], rfl, rfl, by simp⟩
  | cons p ms ih =>
    obtain ⟨entries, htexts, hnames, haccepted⟩ :=
      ih (fun p hp ↦ hfields p (List.mem_cons_of_mem _ hp))
        fun p hp ↦ hfinite p (List.mem_cons_of_mem _ hp)
    obtain ⟨y, -, hread⟩ := Json.exists_readField_number (hfinite p List.mem_cons_self)
    refine ⟨(p.1, Json.writeNumber p.2, .number y) :: entries, ?_, ?_, ?_⟩
    · rw [List.map_cons, ← htexts]
      rfl
    · rw [List.map_cons, List.map_cons, hnames]
    · intro e he
      rcases List.mem_cons.1 he with rfl | he
      · exact ⟨.number, hfields p List.mem_cons_self, hread⟩
      · exact haccepted e he

/-- **A reading that is not finite is refused**, at the word that stands for its first measurement
that is no finite number. -/
theorem exists_parse_toJson_eq_error {r : Reading} (h : ¬ r.IsFinite) :
    ∃ line column, parse r.toJson =
      .error (.mismatch (.wrongType .null Json.FieldType.number.expected) line column) := by
  -- The first measurement that is not finite is where reading stops.
  obtain ⟨p, hp⟩ : ∃ p, r.measurements.find? (fun p ↦ !p.2.isFinite) = some p := by
    rw [← Option.isSome_iff_exists, List.find?_isSome]
    simpa [IsFinite] using h
  obtain ⟨hnull, before, after, hsplit, hbefore⟩ := List.find?_eq_some_iff_append.1 hp
  have hmem {q : String × Binary64} (hq : q ∈ before ++ p :: after) :
      shape.fields.lookup q.1 = some .number := lookup_fields (hsplit ▸ hq)
  have hnodup := r.nodup_measurements
  rw [hsplit, List.map_append, List.map_cons, List.nodup_append] at hnodup
  have hbefore : ∀ q ∈ before, q.2.isFinite = true := fun q hq ↦ by simpa using hbefore q hq
  obtain ⟨entries, htexts, hnames, haccepted⟩ :=
    exists_entries (fun q hq ↦ hmem (List.mem_append_left _ hq)) hbefore
  have hnew : p.1 ∉ entries.map Prod.fst := by
    rw [hnames]
    exact fun hp ↦ hnodup.2.2 _ hp _ List.mem_cons_self rfl
  obtain ⟨line, column, herror⟩ := Json.exists_parse_object_eq_error haccepted
    (hnames ▸ hnodup.1) hnew (hmem (by simp))
    (Json.readField_number_of_not_isFinite (by simpa using hnull))
    (after.map (fun q ↦ (q.1, Json.writeNumber q.2)) ++
      [("ts", Text.numeral r.timestamp.toNat)])
  refine ⟨line, column, ?_⟩
  have htext : r.toJson = Json.object (Json.texts entries ++ (p.1, Json.writeNumber p.2) ::
      (after.map (fun q ↦ (q.1, Json.writeNumber q.2)) ++
        [("ts", Text.numeral r.timestamp.toNat)])) := by
    rw [toJson_eq, hsplit, htexts, List.map_append, List.map_cons, List.append_assoc]
    rfl
  rw [parse, htext, herror]
  rfl

/-! ### The readings of the sources -/

/-- The light is the number of the sample. -/
theorem value?_light (s : Sample) (light : UInt16) (now : UInt64) :
    (Acquisition.reading s light now).light.value? = some (light.toNat : ℚ) := by
  simp only [Acquisition.reading]
  exact Binary64.value?_ofNat (light.toNat_lt.trans (by decide))

/-- Every sample of the climate and of the light makes a finite reading. -/
theorem isFinite_reading (raw : RawSample) (light : UInt16) (now : UInt64) :
    (Acquisition.reading raw.toSample light now).IsFinite :=
  isFinite_iff.2 ⟨Binary64.isFinite_of_value? raw.value?_humidity_eq_percent,
    Binary64.isFinite_of_value? raw.value?_temperatureC_eq_celsius,
    Binary64.isFinite_of_value? raw.value?_fahrenheit,
    Binary64.isFinite_of_value? (value?_light _ _ _)⟩

/-- A sample of the light comes back as it is. -/
theorem eq_light {s : Sample} {light : UInt16} {now : UInt64} {y : Binary64}
    (h : Json.IsReread (Acquisition.reading s light now).light y) :
    y = (Acquisition.reading s light now).light :=
  h.eq_of_whole _ _ (value?_light s light now) (Nat.abs_cast _) (light.toNat_lt.trans (by decide))

/-- **What a device gives** is read back with the same time and light, and with neighbours of the
other measurements at worst. -/
theorem exists_parse_toJson_of_latest {σ : Type} (d : Device σ) (state : σ) (now : UInt64)
    {r : Reading} (h : ((d.latest now).run state).result = .ok r) :
    ∃ r', parse r.toJson = .ok r' ∧ r'.timestamp = r.timestamp ∧ r'.light = r.light ∧
      r.humidity.IsClose 1 r'.humidity ∧ r.temperatureC.IsClose 1 r'.temperatureC ∧
      r.temperatureF.IsClose 1 r'.temperatureF := by
  have hcourse := Acquisition.course_acquire d.hardware d.address d.lightPin now state
  have hok : ((Acquisition.acquire d.hardware d.address d.lightPin now).run state).result = .ok r :=
    h
  simp only [hok] at hcourse
  obtain ⟨octets, s, light, -, hdecode, rfl, -⟩ := hcourse.exists_of_ok
  obtain ⟨raw, rfl, -⟩ := Frame.exists_raw_of_decode hdecode
  obtain ⟨r', hparse, hreread⟩ := exists_parse_toJson (isFinite_reading raw light now)
  exact ⟨r', hparse, hreread.timestamp, eq_light hreread.light,
    raw.close_humidity hreread.humidity, raw.close_temperatureC hreread.temperatureC,
    raw.close_fahrenheit hreread.temperatureF⟩

/-- The reading of nothing comes back as it is. -/
theorem parse_toJson_zeroed (now : UInt64) : parse (zeroed now).toJson = .ok (zeroed now) := by
  have hunits : ((Magnitude.zero.units : ℕ) : ℚ) = 0 := Nat.cast_zero
  have hvalue : Binary64.zero.value? = some 0 :=
    Binary64.value?_eq_some_iff.2 ⟨false, .zero, rfl, by rw [hunits, mul_zero, zero_mul]⟩
  have hzero {y : Binary64} (h : Json.IsReread .zero y) : y = .zero :=
    h.eq_of_whole 0 0 hvalue (by simp) (by decide)
  obtain ⟨⟨y₁, y₂, y₃, y₄, t⟩, hparse, hreread⟩ :=
    exists_parse_toJson (isFinite_iff.2 ⟨rfl, rfl, rfl, rfl⟩ : (zeroed now).IsFinite)
  obtain rfl : y₁ = .zero := hzero hreread.humidity
  obtain rfl : y₂ = .zero := hzero hreread.temperatureC
  obtain rfl : y₃ = .zero := hzero hreread.temperatureF
  obtain rfl : y₄ = .zero := hzero hreread.light
  obtain rfl : t = now := hreread.timestamp
  exact hparse

/-- **Readings cross the wire.** A finite reading is read back with its time, and each measurement
as `Json.IsReread` says; what the source without sensors gives comes back as it is, and what a
device gives comes back with the same light, and its other measurements move by one code at most. A
reading that is not finite is refused as having `null` for a number. -/
theorem parse_toJson :
    (∀ r : Reading, r.IsFinite → ∃ r', parse r.toJson = .ok r' ∧ r.IsReread r') ∧
    (∀ (asked : ℕ) (now : UInt64) (r : Reading), Source.stub.answer asked now = .ok r →
      parse r.toJson = .ok r) ∧
    (∀ {σ : Type} (d : Device σ) (state : σ) (now : UInt64) (r : Reading),
      ((d.latest now).run state).result = .ok r →
      ∃ r', parse r.toJson = .ok r' ∧ r'.timestamp = r.timestamp ∧ r'.light = r.light ∧
        r.humidity.IsClose 1 r'.humidity ∧ r.temperatureC.IsClose 1 r'.temperatureC ∧
        r.temperatureF.IsClose 1 r'.temperatureF) ∧
    ∀ r : Reading, ¬ r.IsFinite → ∃ line column, parse r.toJson =
      .error (.mismatch (.wrongType .null Json.FieldType.number.expected) line column) := by
  refine ⟨fun r ↦ exists_parse_toJson, ?_,
    fun d state now r ↦ exists_parse_toJson_of_latest d state now,
    fun r ↦ exists_parse_toJson_eq_error⟩
  rintro asked now r ⟨⟩
  exact parse_toJson_zeroed now

end Reading

/-- A device at the freezing point, in dry air, without a light sensor. -/
def Device.chilly : Device Unit where
  hardware :=
    { write := fun _ _ _ ↦ (.ok (), ())
      read := fun _ _ _ ↦ (.ok [0x1C, 0x00, 0x05, 0xF4, 0x00, 0x00, 0x1E], ())
      sample := fun _ _ ↦ (.ok 2048, ()) }
  address := 0x38
  lightPin := 0

theorem Device.latest_chilly (now : UInt64) : ((chilly.latest now).run ()).result =
    .ok (Acquisition.reading (RawSample.toSample ⟨95, 0x40000⟩) 0 now) := by
  have hframe : [0x1C, 0x00, 0x05, 0xF4, 0x00, 0x00, 0x1E] = Frame.ofRaw ⟨95, 0x40000⟩ := by
    decide +kernel
  have hmeasure : (Acquisition.measure chilly.hardware 0x38).run () =
      ⟨.ok (RawSample.toSample ⟨95, 0x40000⟩),
        [.write 0x38 Frame.trigger, .read 0x38 Frame.size], ()⟩ := by
    refine (Acquisition.measure_of_read rfl rfl).trans ?_
    rw [hframe, Frame.decode_ofRaw]
    rfl
  rw [latest, show chilly.address = 0x38 from rfl, Acquisition.acquire_of_measure now hmeasure]
  rfl

/-- The time and the light come back, and a reading whose light is no number is refused. -/
theorem Reading.parse_toJson_chilly :
    let r := Acquisition.reading (RawSample.toSample ⟨95, 0x40000⟩) 0 1700000000000
    (∃ r', parse r.toJson = .ok r' ∧ r.IsReread r') ∧
    parse (zeroed 0).toJson = .ok (zeroed 0) ∧
    (∃ r', parse r.toJson = .ok r' ∧ r'.timestamp = 1700000000000 ∧ r'.light = r.light ∧
      r.humidity.IsClose 1 r'.humidity) ∧
    ∃ line column, parse { r with light := .nan }.toJson =
      .error (.mismatch (.wrongType .null "f64") line column) := by
  intro r
  have hlatest : ((Device.chilly.latest 1700000000000).run ()).result = .ok r :=
    Device.latest_chilly _
  obtain ⟨hfinite, hstub, hdevice, hrefused⟩ := parse_toJson
  obtain ⟨r', hparse, htime, hlight, hhumidity, -⟩ :=
    hdevice Device.chilly () 1700000000000 r hlatest
  exact ⟨hfinite r (isFinite_reading _ _ _), hstub 0 0 _ rfl,
    ⟨r', hparse, htime, hlight, hhumidity⟩,
    hrefused { r with light := .nan } fun h ↦ absurd (isFinite_iff.1 h).2.2.2 (by decide)⟩

/-- **A reading of a device that comes back changed**: its humidity, `0.009059906005859375`, has too
many digits to be read with one rounding. -/
theorem Reading.parse_toJson_ne :
    let r := Acquisition.reading (RawSample.toSample ⟨95, 0x40000⟩) 0 1700000000000
    r.IsFinite ∧ ((Device.chilly.latest 1700000000000).run ()).result = .ok r ∧
      parse r.toJson ≠ .ok r := by
  intro r
  have hne : (parse r.toJson).toOption ≠ some r := by decide +kernel
  exact ⟨isFinite_reading _ _ _, Device.latest_chilly _, fun h ↦ hne (congrArg Except.toOption h)⟩

end Hygrometer
