import Hygrometer.Proofs.Json.Members
import Hygrometer.Proofs.Json.Range
import Hygrometer.Proofs.Reading.Wire

/-!
# Readings by name

A reading is read from the five members of its names, each into the field of its own name, wherever
in the object they stand and whatever other members stand between them (`Reading.parse_eq_ok_iff`).
The statement is about the members that a text holds by the grammar, so it does not depend on
blanks, on the spelling of a key or on that of a number.

**Time and measurements are read differently.** The time is a whole number: it is read from plain
digits and nothing else, so a sign, a point or an exponent is a refusal, and so is a number that 64
bits do not hold (`exists_parse_eq_error_of_ts`). A measurement may be written with any number of
digits and is read if it is in range (`Reading.exists_parse_of_inRange`).

**The range of the reader ends a little before the greatest number.** A numeral is scaled by a
rounded power of ten, so one that is below the greatest number may be rounded past it, and is then
out of range. There is such a numeral (`exists_parse_eq_error_of_top`), which is why the range is a
condition here and not the range of the format.

**Refusals.** A name that is missing or comes twice is a refusal, whatever else the object holds
(`exists_parse_eq_error_of_count`). All of these come from the equivalence: a text that is read as
no reading is refused, so it is enough that no reading fits the members
(`exists_parse_eq_error_of_ne`).
-/

namespace Hygrometer

open Json (IsTextOf valuesOf Parts Value)

namespace Reading

variable {ms : List (String × Value)} {s : String} {r : Reading}

theorem isNodup_shape : shape.IsNodup := by
  rw [Json.Shape.IsNodup]
  decide

/-- A reading is read from the values of its fields. -/
theorem parse_eq_ok_iff_shape : parse s = .ok r ↔ shape.parse s =
    .ok (r.measurements.map (.number ·.2) ++ [.natural r.timestamp]) := by
  rw [parse, Except.bind_eq_ok_iff]
  constructor
  · rintro ⟨vs, hvs, hr⟩
    split at hr
    · cases hr
      exact hvs
    · cases hr
  · exact fun hvs ↦ ⟨_, hvs, rfl⟩

/-- **An object is a reading** exactly if each of its five names has one member: a number for a
measurement, and plain digits for the time. -/
theorem parse_eq_ok_iff (h : IsTextOf (.object ms) s) : parse s = .ok r ↔
    (∀ m ∈ r.measurements, ∃ v, valuesOf m.1 ms = [v] ∧ v.field? .number = some (.number m.2)) ∧
      valuesOf "ts" ms = [.whole r.timestamp.toNat] := by
  have htimestamp : (∃ v, valuesOf "ts" ms = [v] ∧
      v.field? .natural = some (.natural r.timestamp)) ↔
        valuesOf "ts" ms = [.whole r.timestamp.toNat] := by
    constructor
    · rintro ⟨v, hv, hfield⟩
      rw [hv, (h.field?_natural_iff hv).1 hfield]
    · exact fun hv ↦ ⟨_, hv, (h.field?_natural_iff hv).2 rfl⟩
  rw [parse_eq_ok_iff_shape, Json.Shape.parse_eq_ok_iff isNodup_shape h]
  simp only [shape, measurements, List.map_cons, List.map_nil, List.cons_append, List.nil_append,
    List.forall₂_cons, List.forall₂_nil_left_iff, and_true, htimestamp, List.forall_mem_cons,
    List.not_mem_nil, false_implies, implies_true, and_assoc]

/-- Measurements in range are read, and the time with them. -/
theorem exists_parse_of_inRange (h : IsTextOf (.object ms) s) {t : UInt64}
    (hnumbers : ∀ name ∈ ["humidity", "temperatureC", "temperatureF", "photores"],
      ∃ negative p, valuesOf name ms = [.number negative p] ∧ p.InRange)
    (hts : valuesOf "ts" ms = [.whole t.toNat]) : ∃ r, parse s = .ok r ∧ r.timestamp = t := by
  have hfield (name : String) (hname : name ∈ ["humidity", "temperatureC", "temperatureF",
      "photores"]) : ∃ x, ∃ v, valuesOf name ms = [v] ∧ v.field? .number = some (.number x) := by
    obtain ⟨negative, p, hp, hrange⟩ := hnumbers name hname
    obtain ⟨n, hn⟩ := hrange.exists_evaluate? negative
    obtain ⟨x, hx⟩ : ∃ x, Json.numberValue n = .number x := by cases n <;> exact ⟨_, rfl⟩
    exact ⟨x, _, hp, by rw [Value.field?, hn, Option.map_some, hx]⟩
  obtain ⟨h', hh⟩ := hfield "humidity" (by simp)
  obtain ⟨c, hc⟩ := hfield "temperatureC" (by simp)
  obtain ⟨f, hf⟩ := hfield "temperatureF" (by simp)
  obtain ⟨l, hl⟩ := hfield "photores" (by simp)
  refine ⟨⟨h', c, f, l, t⟩, (parse_eq_ok_iff h).2 ⟨?_, hts⟩, rfl⟩
  simp only [measurements, List.forall_mem_cons, List.not_mem_nil, false_implies, implies_true,
    and_true]
  exact ⟨hh, hc, hf, hl⟩

/-- What is no reading is refused. -/
theorem exists_parse_eq_error_of_ne (h : ∀ r, parse s ≠ .ok r) : ∃ e, parse s = .error e := by
  rcases hparse : parse s with e | r
  · exact ⟨e, rfl⟩
  · exact absurd hparse (h r)

theorem exists_parse_eq_error_of_count {name : String} (h : IsTextOf (.object ms) s)
    (hname : name ∈ ["humidity", "temperatureC", "temperatureF", "photores", "ts"])
    (hcount : (ms.map Prod.fst).count name ≠ 1) : ∃ e, parse s = .error e := by
  obtain ⟨e, he⟩ := Json.Shape.exists_parse_eq_error isNodup_shape h hname hcount
  refine exists_parse_eq_error_of_ne fun r hr ↦ ?_
  rw [parse_eq_ok_iff_shape, he] at hr
  cases hr

/-- A time that is negative, has a fraction or an exponent, or is too large is refused. -/
theorem exists_parse_eq_error_of_ts (h : IsTextOf (.object ms) s) {negative : Bool} {p : Parts}
    (hts : valuesOf "ts" ms = [.number negative p])
    (hp : negative = true ∨ p.fraction ≠ none ∨ p.exponent ≠ none ∨
      UInt64.size ≤ Text.natOfDecimal p.whole) : ∃ e, parse s = .error e := by
  refine exists_parse_eq_error_of_ne fun r hr ↦ ?_
  have htime := ((parse_eq_ok_iff h).1 hr).2
  rw [hts, Value.whole, List.singleton_inj, Value.number.injEq] at htime
  obtain ⟨rfl, rfl⟩ := htime
  simp only [Json.wholeParts, Text.natOfDecimal_toDigits, ne_eq, not_true_eq_false,
    Bool.false_eq_true, false_or] at hp
  exact absurd r.timestamp.toNat_lt_size (Nat.not_lt.2 hp)

/-- **Readings are read by name.** An object is read if each of the five names comes once, with
numbers in range for the measurements and plain digits for the time. It is then read as the number
of each measurement's own name and that time, and as nothing else; what it is read as is the same
for every object with these members, in any order and among any members of other names. If one of
the five names is missing or comes again, or the time is negative, has a fraction or an exponent, or
does not fit 64 bits, the object is refused. -/
theorem parse_by_name (h : IsTextOf (.object ms) s) :
    (∀ t : UInt64, (∀ name ∈ ["humidity", "temperatureC", "temperatureF", "photores"],
        ∃ negative p, valuesOf name ms = [.number negative p] ∧ p.InRange) →
      valuesOf "ts" ms = [.whole t.toNat] → ∃ r, parse s = .ok r ∧ r.timestamp = t) ∧
    (∀ r, parse s = .ok r ↔
      (∀ m ∈ r.measurements, ∃ v, valuesOf m.1 ms = [v] ∧ v.field? .number = some (.number m.2)) ∧
        valuesOf "ts" ms = [.whole r.timestamp.toNat]) ∧
    (∀ ms' s', IsTextOf (.object ms') s' →
      (ms.filter shape.hasField).Perm (ms'.filter shape.hasField) →
        ∀ r, parse s = .ok r ↔ parse s' = .ok r) ∧
    (∀ name ∈ ["humidity", "temperatureC", "temperatureF", "photores", "ts"],
      (ms.map Prod.fst).count name ≠ 1 → ∃ e, parse s = .error e) ∧
    ∀ negative p, valuesOf "ts" ms = [.number negative p] →
      (negative = true ∨ p.fraction ≠ none ∨ p.exponent ≠ none ∨
        UInt64.size ≤ Text.natOfDecimal p.whole) → ∃ e, parse s = .error e := by
  refine ⟨fun t ↦ exists_parse_of_inRange h, fun r ↦ parse_eq_ok_iff h, ?_,
    fun name ↦ exists_parse_eq_error_of_count h, fun negative p ↦ exists_parse_eq_error_of_ts h⟩
  intro ms' s' h' hperm r
  rw [parse_eq_ok_iff_shape, parse_eq_ok_iff_shape]
  exact Json.Shape.parse_eq_ok_congr isNodup_shape h h' hperm

/-- What is written for a reading of zeros is a text of its members, with any text of a humidity and
of a time. -/
theorem isTextOf_zeros {humidity time : Value} {humidityText timeText : String}
    (hhumidity : Json.Spells (.value humidity) humidityText.toList)
    (htime : Json.Spells (.value time) timeText.toList) :
    IsTextOf (.object [("humidity", humidity), ("temperatureC", .whole 0),
      ("temperatureF", .whole 0), ("photores", .whole 0), ("ts", time)])
      (Json.object [("humidity", humidityText), ("temperatureC", "0"), ("temperatureF", "0"),
        ("photores", "0"), ("ts", timeText)]) :=
  Json.isTextOf_object <| .cons ⟨rfl, hhumidity⟩ <| .cons ⟨rfl, Json.spells_numeral 0⟩ <|
    .cons ⟨rfl, Json.spells_numeral 0⟩ <| .cons ⟨rfl, Json.spells_numeral 0⟩ <|
    .cons ⟨rfl, htime⟩ .nil

/-- The members of a reading whose degrees Celsius have an exponent, and whose degrees Fahrenheit
have a sign and a fraction. -/
def mixed : List (String × Value) :=
  [("humidity", .whole 0), ("temperatureC", .number false ⟨['5'], none, some (true, ['1'])⟩),
    ("temperatureF", .number true ⟨['4', '0'], some ['5'], none⟩), ("photores", .whole 4095),
    ("ts", .whole 18446744073709551615)]

theorem spells_exponent :
    Json.Spells (.value (.number false ⟨['5'], none, some (true, ['1'])⟩)) "5e-1".toList :=
  .number (Parts.isNumber_text
    ⟨by simp, by simp, .inr rfl, by simp, by simp⟩ false)

theorem spells_fraction :
    Json.Spells (.value (.number true ⟨['4', '0'], some ['5'], none⟩)) "-40.5".toList :=
  .number (Parts.isNumber_text
    ⟨by simp, by simp, .inl (by simp), by simp, by simp⟩ true)

/-- The members the other way round and among others are the same reading. Without one of the names
or with one twice it is refused, and so it is at a time that is none. -/
theorem parse_by_name_mixed :
    let r : Reading := ⟨0, .ofBits 0x3FE0000000000000, .ofBits 0xC044400000000000, 4095,
      18446744073709551615⟩
    let reversed := Json.object [("x", "[null]"), ("ts", "18446744073709551615"),
      ("photores", "4095"), ("temperatureF", "-40.5"), ("", "\"ts\""), ("temperatureC", "5e-1"),
      ("humidity", "0")]
    (∃ r', parse reversed = .ok r' ∧ r'.timestamp = 18446744073709551615) ∧ parse reversed = .ok r ∧
    parse (Json.object [("humidity", "0"), ("temperatureC", "5e-1"), ("temperatureF", "-40.5"),
      ("photores", "4095"), ("ts", "18446744073709551615")]) = .ok r ∧
    (∃ e, parse (Json.object [("humidity", "0"), ("ts", "0"), ("humidity", "0")]) = .error e) ∧
    ∃ e, parse (Json.object [("humidity", "0"), ("temperatureC", "0"), ("temperatureF", "0"),
      ("photores", "0"), ("ts", "18446744073709551616")]) = .error e := by
  intro r reversed
  have hordered : IsTextOf (.object mixed) (Json.object [("humidity", "0"),
      ("temperatureC", "5e-1"), ("temperatureF", "-40.5"), ("photores", "4095"),
      ("ts", "18446744073709551615")]) :=
    Json.isTextOf_object <| .cons ⟨rfl, Json.spells_numeral 0⟩ <| .cons ⟨rfl, spells_exponent⟩ <|
      .cons ⟨rfl, spells_fraction⟩ <| .cons ⟨rfl, Json.spells_numeral 4095⟩ <|
      .cons ⟨rfl, Json.spells_numeral 18446744073709551615⟩ .nil
  have hreversed : IsTextOf (.object [("x", .array [.null]), ("ts", .whole 18446744073709551615),
      ("photores", .whole 4095), ("temperatureF", .number true ⟨['4', '0'], some ['5'], none⟩),
      ("", .text "ts"), ("temperatureC", .number false ⟨['5'], none, some (true, ['1'])⟩),
      ("humidity", .whole 0)]) reversed :=
    Json.isTextOf_object <| .cons ⟨rfl, .array (.element true .null (.arrayEnd false))⟩ <|
      .cons ⟨rfl, Json.spells_numeral 18446744073709551615⟩ <|
      .cons ⟨rfl, Json.spells_numeral 4095⟩ <| .cons ⟨rfl, spells_fraction⟩ <|
      .cons ⟨rfl, Json.spells_quote "ts"⟩ <| .cons ⟨rfl, spells_exponent⟩ <|
      .cons ⟨rfl, Json.spells_numeral 0⟩ .nil
  obtain ⟨hread, hvalues, hperm, -⟩ := parse_by_name hreversed
  have hr : parse reversed = .ok r := by
    refine (hvalues r).2 ⟨?_, rfl⟩
    simp only [measurements, r, List.forall_mem_cons, List.not_mem_nil, false_implies, implies_true,
      and_true]
    exact ⟨⟨_, rfl, by decide +kernel⟩, ⟨_, rfl, by decide +kernel⟩, ⟨_, rfl, by decide +kernel⟩,
      ⟨_, rfl, by decide +kernel⟩⟩
  refine ⟨hread _ ?_ rfl, hr, ?_, ?_, ?_⟩
  · simp only [List.forall_mem_cons, List.not_mem_nil, false_implies, implies_true, and_true]
    refine ⟨⟨_, _, rfl, ?_⟩, ⟨_, _, rfl, ?_⟩, ⟨_, _, rfl, ?_⟩, ⟨_, _, rfl, ?_⟩⟩
    all_goals exact Parts.inRange_of_digits_lt (n := 5) (by decide) (by decide) (by decide)
  · exact (hperm mixed _ hordered (List.reverse_perm mixed) r).1 hr
  · have htwice : IsTextOf
        (.object [("humidity", .whole 0), ("ts", .whole 0), ("humidity", .whole 0)])
        (Json.object [("humidity", "0"), ("ts", "0"), ("humidity", "0")]) :=
      Json.isTextOf_object <| .cons ⟨rfl, Json.spells_numeral 0⟩ <|
        .cons ⟨rfl, Json.spells_numeral 0⟩ <| .cons ⟨rfl, Json.spells_numeral 0⟩ .nil
    exact (parse_by_name htwice).2.2.2.1 "humidity" (by simp) (by decide)
  · have hlate := isTextOf_zeros (Json.spells_numeral 0) (Json.spells_numeral 18446744073709551616)
    exact (parse_by_name hlate).2.2.2.2 _ _ rfl (.inr (.inr (.inr (by decide))))

/-- The numeral `1797693134862315708e290`: its significand and its power of ten are both rounded
up. -/
def topNumeral : Parts :=
  { Json.wholeParts 1797693134862315708 with exponent := some (false, ['2', '9', '0']) }

/-- **A number below the greatest one is too large for the reader**, so that a reading with all five
members is refused. -/
theorem exists_parse_eq_error_of_top :
    IsTextOf (.object [("humidity", .number false topNumeral), ("temperatureC", .whole 0),
      ("temperatureF", .whole 0), ("photores", .whole 0), ("ts", .whole 0)])
      (Json.object [("humidity", "1797693134862315708e290"), ("temperatureC", "0"),
        ("temperatureF", "0"), ("photores", "0"), ("ts", "0")]) ∧
    (∃ q, (Binary64.finite false Json.largest).value? = some q ∧ topNumeral.value ≤ q) ∧
    ∃ e, parse (Json.object [("humidity", "1797693134862315708e290"), ("temperatureC", "0"),
      ("temperatureF", "0"), ("photores", "0"), ("ts", "0")]) = .error e := by
  have hnumeral : topNumeral.IsNumeral :=
    { Json.isNumeral_wholeParts 1797693134862315708 with exponent := by simp [topNumeral] }
  refine ⟨?_, ?_, ?_⟩
  · exact isTextOf_zeros (.number ⟨hnumeral, ['e', '2', '9', '0'],
      ⟨'e', [], .inl rfl, .inr ⟨rfl, rfl⟩, rfl⟩, rfl⟩) (Json.spells_numeral 0)
  · refine ⟨_, Binary64.value?_of_exp_eq (m := Json.largest) (k := 971) rfl, ?_⟩
    have hnat : 1797693134862315708 * 10 ^ 290 ≤ Json.largest.coeff * 2 ^ 971 := by decide +kernel
    have hexp : topNumeral.exp = 290 := by decide
    have hdigits : topNumeral.digits = 1797693134862315708 := by
      rw [Parts.digits, topNumeral, Json.wholeParts, Option.getD_none, List.append_nil,
        Text.natOfDecimal_toDigits]
    rw [Parts.value, hexp, hdigits]
    exact_mod_cast hnat
  · refine exists_parse_eq_error_of_ne fun r hr ↦ ?_
    have hnone : (parse (Json.object [("humidity", "1797693134862315708e290"),
        ("temperatureC", "0"), ("temperatureF", "0"), ("photores", "0"), ("ts", "0")])).toOption =
          none := by
      decide +kernel
    rw [hr] at hnone
    cases hnone

end Reading
end Hygrometer
