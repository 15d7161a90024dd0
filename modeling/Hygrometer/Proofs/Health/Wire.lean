import Hygrometer.Reading
import Hygrometer.Proofs.Json.Members
import Hygrometer.Proofs.Service.Serving

/-!
# Health on the wire

A liveness answer is read from the three members of its names, wherever in the object they stand and
whatever other members stand between them (`Health.parse_eq_ok_iff`); an object in which one of them
is missing or comes again is refused (`exists_parse_eq_error`). What is written for an answer is one
of its texts (`isTextOf_toJson`), so every answer is read back (`parse_eq_of_toJson`), and a client
that reads `/health` learns the name that was configured.

The name is any text, and the time any number of 64 bits. There is nothing that is lost on the way:
characters are escaped where they have to be, and a time is a whole number, whose digits are read
without a rounding.

These are facts about three fields. That a record is read by the names of its members is the same
for all records, and is taken from there.
-/

namespace Hygrometer

open Json (IsTextOf valuesOf Spells)
open Http

namespace Health

variable {ms : List (String × Json.Value)} {s : String}

theorem isNodup_shape : shape.IsNodup := by
  rw [Json.Shape.IsNodup]
  decide

/-- **An object is a liveness answer** exactly if each of its three names has one member, which
holds a value of its type. -/
theorem parse_eq_ok_iff (h : IsTextOf (.object ms) s) {health : Health} :
    parse s = .ok health ↔
      valuesOf "ok" ms = [.boolean health.ok] ∧ valuesOf "service" ms = [.text health.service] ∧
        valuesOf "ts" ms = [.whole health.timestamp.toNat] := by
  have hfields : parse s = .ok health ↔ shape.parse s =
      .ok [.boolean health.ok, .text health.service, .natural health.timestamp] := by
    rw [parse, Except.bind_eq_ok_iff]
    constructor
    · rintro ⟨vs, hvs, hhealth⟩
      split at hhealth
      · cases hhealth
        exact hvs
      · cases hhealth
    · exact fun hvs ↦ ⟨_, hvs, rfl⟩
  have htimestamp : (∃ v, valuesOf "ts" ms = [v] ∧
      v.field? .natural = some (.natural health.timestamp)) ↔
        valuesOf "ts" ms = [.whole health.timestamp.toNat] := by
    constructor
    · rintro ⟨v, hv, hfield⟩
      rw [hv, (h.field?_natural_iff hv).1 hfield]
    · exact fun hv ↦ ⟨_, hv, (h.field?_natural_iff hv).2 rfl⟩
  rw [hfields, Json.Shape.parse_eq_ok_iff isNodup_shape h]
  simp only [shape, List.forall₂_cons, List.forall₂_nil_left_iff, and_true, htimestamp,
    Json.Value.field?_boolean_iff, Json.Value.field?_text_iff, exists_eq_right]

/-- What is written for an answer is a text of its three members. -/
theorem isTextOf_toJson (h : Health) :
    IsTextOf (.object [("ok", .boolean h.ok), ("service", .text h.service),
      ("ts", .whole h.timestamp.toNat)]) h.toJson := by
  refine Json.isTextOf_object <| .cons ⟨rfl, ?_⟩ <| .cons ⟨rfl, Json.spells_quote _⟩ <|
    .cons ⟨rfl, Json.spells_numeral _⟩ .nil
  have hok := Spells.boolean h.ok
  cases hvalue : h.ok <;> rw [hvalue] at hok <;> exact hok

/-- An answer is read back. -/
theorem parse_eq_of_toJson (h : Health) : parse h.toJson = .ok h :=
  (parse_eq_ok_iff h.isTextOf_toJson).2 ⟨rfl, rfl, rfl⟩

/-- An object in which a name of the three does not come exactly once is refused. -/
theorem exists_parse_eq_error {name : String} (h : IsTextOf (.object ms) s)
    (hname : name ∈ ["ok", "service", "ts"]) (hcount : (ms.map Prod.fst).count name ≠ 1) :
    ∃ e, parse s = .error e := by
  obtain ⟨e, he⟩ := Json.Shape.exists_parse_eq_error isNodup_shape h hname hcount
  refine ⟨e, ?_⟩
  rw [parse, he]
  rfl

/-- **Liveness answers are read by name.** Every answer is read back from its text. An object is
read as the values of its three names, each of which comes once, in any order and among members of
other names with values of any shape; if one of the three is missing or comes again, the object is
refused. So whatever configuration the service has loaded, and whatever requests came before, the
answer at `/health` is read as the configured name, at the moment of the answer. -/
theorem parse_recovers :
    (∀ h : Health, parse h.toJson = .ok h) ∧
    (∀ s ms, IsTextOf (.object ms) s →
      (∀ ok service (t : UInt64), valuesOf "ok" ms = [.boolean ok] →
        valuesOf "service" ms = [.text service] → valuesOf "ts" ms = [.whole t.toNat] →
          parse s = .ok ⟨ok, service, t⟩) ∧
      ∀ name ∈ ["ok", "service", "ts"], (ms.map Prod.fst).count name ≠ 1 →
        ∃ e, parse s = .error e) ∧
    ∀ path value? c, Config.load path value? = .ok c → ∃ s, Service.start c = .ok s ∧
      ∀ requests request moment, request.method = .get → request.path = "/health" →
        parse ((s.run requests).2.respond request moment).1.body =
          .ok ⟨true, c.server.serviceName, moment.now⟩ := by
  refine ⟨parse_eq_of_toJson, fun s ms h ↦ ⟨fun ok service t hok hservice ht ↦ ?_, ?_⟩, ?_⟩
  · exact (parse_eq_ok_iff h).2 ⟨hok, hservice, ht⟩
  · exact fun name hname hcount ↦ exists_parse_eq_error h hname hcount
  · intro path value? c hload
    refine ⟨_, Service.start_eq_ok_iff.2 ⟨Config.isValid_of_load hload, rfl⟩, ?_⟩
    intro requests request moment hmethod hpath
    have hpath : request.path = Route.health.path := hpath
    rw [Service.respond_fst_of_get _ moment hmethod hpath]
    show parse (alive (Service.run _ requests).2.config.server.serviceName moment.now).toJson = _
    rw [Service.run_config]
    exact parse_eq_of_toJson _

/-- The members of an answer in another order and behind one that is not known, an answer that says
twice how it is, and a service of a configured name. -/
theorem parse_recovers_unordered :
    parse (Json.object [("x", "[null]"), ("ts", "18446744073709551615"),
      ("service", Json.quote "a\"\n"), ("ok", "false")]) =
        .ok ⟨false, "a\"\n", 18446744073709551615⟩ ∧
    (∃ e, parse (Json.object [("ok", "true"), ("service", Json.quote ""), ("ts", "0"),
      ("ok", "true")]) = .error e) ∧
    ∃ c s, Config.load (.file "server: {service_name: probe}\n".toUTF8) none = .ok c ∧
      Service.start c = .ok s ∧
      parse (s.respond ⟨.get, "/health"⟩ ⟨7, ⟨0⟩⟩).1.body = .ok ⟨true, "probe", 7⟩ := by
  obtain ⟨-, hread, hserve⟩ := parse_recovers
  refine ⟨?_, ?_, ?_⟩
  · have htext : IsTextOf (.object [("x", .array [.null]), ("ts", .whole 18446744073709551615),
        ("service", .text "a\"\n"), ("ok", .boolean false)])
        (Json.object [("x", "[null]"), ("ts", "18446744073709551615"),
          ("service", Json.quote "a\"\n"), ("ok", "false")]) :=
      Json.isTextOf_object <|
        .cons ⟨rfl, .array (.element true .null (.arrayEnd false))⟩ <|
        .cons ⟨rfl, Json.spells_numeral 18446744073709551615⟩ <|
        .cons ⟨rfl, Json.spells_quote _⟩ <| .cons ⟨rfl, .boolean false⟩ .nil
    exact (hread _ _ htext).1 false "a\"\n" 18446744073709551615 rfl rfl rfl
  · have htext : IsTextOf (.object [("ok", .boolean true), ("service", .text ""), ("ts", .whole 0),
        ("ok", .boolean true)])
        (Json.object [("ok", "true"), ("service", Json.quote ""), ("ts", "0"), ("ok", "true")]) :=
      Json.isTextOf_object <| .cons ⟨rfl, .boolean true⟩ <| .cons ⟨rfl, Json.spells_quote _⟩ <|
        .cons ⟨rfl, Json.spells_numeral 0⟩ <| .cons ⟨rfl, .boolean true⟩ .nil
    exact (hread _ _ htext).2 "ok" (by simp) (by decide)
  · have hname : (Config.load (.file "server: {service_name: probe}\n".toUTF8) none).toOption.map
        (·.server.serviceName) = some "probe" := by
      decide +kernel
    rcases hload : Config.load (.file "server: {service_name: probe}\n".toUTF8) none with e | c
    · rw [hload] at hname
      cases hname
    · rw [hload] at hname
      obtain ⟨s, hstart, hhealth⟩ := hserve _ _ c hload
      have hanswer := hhealth [] ⟨.get, "/health"⟩ ⟨7, ⟨0⟩⟩ rfl (by decide +kernel)
      have hprobe : c.server.serviceName = "probe" := Option.some.inj hname
      rw [hprobe] at hanswer
      exact ⟨c, s, rfl, hstart, hanswer⟩

end Health
end Hygrometer
