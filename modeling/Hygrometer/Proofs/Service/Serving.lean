import Hygrometer.Proofs.Config.Validity
import Hygrometer.Proofs.Service.Run
import Hygrometer.Proofs.Source.Simulated

/-!
# Every configuration that loads can be served

A loaded configuration is valid (`Config.isValid_of_load`), and a valid one starts: its host is an
address to listen on, and its source never fails. A run changes neither the configuration nor the
source, so what the service answers at first it answers after any requests: `GET` at `/latest` and
`/health` has status 200 (`status_latest`, `status_health`).

**Nothing is left to fail at the start.** The address is read again when the service starts, and is
the one that validation has read; the source is made of its section of the configuration, and a
simulated board answers whatever its conditions are. So a service that starts is known from its
configuration (`start_eq_ok_iff`), and a configuration that cannot be served is refused when it is
loaded, before anything listens.
-/

namespace Hygrometer

open Http

/-- A host that is an internet address is listened on at the port, as the address it is. -/
theorem ServerConfig.endpoint_of_isSome {c : ServerConfig}
    (h : (IpAddress.parse? c.host).isSome) :
    ∃ address, IpAddress.parse? c.host = some address ∧ c.endpoint = .ok ⟨address, c.port⟩ := by
  obtain ⟨address, haddress⟩ := Option.isSome_iff_exists.1 h
  refine ⟨address, haddress, ?_⟩
  rw [endpoint, haddress]

namespace Service

/-- A service starts exactly with a valid configuration. -/
theorem start_eq_ok_iff {c : Config} {s : Service} :
    start c = .ok s ↔ c.IsValid ∧ s = { config := c, source := .ofConfig c.source } := by
  rw [start, Except.andThen_eq_ok_iff, Config.validate_eq_ok_iff]
  refine and_congr_right fun _ ↦ ?_
  exact ⟨fun h ↦ (Except.ok.inj h).symm, fun h ↦ h ▸ rfl⟩

/-- Readings are served as long as the source answers. -/
theorem status_latest (s : Service) {request : Request} (moment : Moment)
    (hsource : ∃ reading, s.source.answer s.asked moment.now = .ok reading)
    (hmethod : request.method = .get) (hpath : request.path = Route.latest.path) :
    (s.respond request moment).1.status = 200 := by
  obtain ⟨reading, hreading⟩ := hsource
  rw [s.respond_fst_of_get moment hmethod hpath, handle, latest, hreading]
  rfl

theorem status_health (s : Service) {request : Request} (moment : Moment)
    (hmethod : request.method = .get) (hpath : request.path = Route.health.path) :
    (s.respond request moment).1.status = 200 := by
  rw [s.respond_fst_of_get moment hmethod hpath]
  rfl

/-- **A loaded configuration can be served.** Whatever the file and the variable `PORT` are, a
configuration that loads is valid: its address has seven bits, its simulated conditions are numbers
in their ranges. Its endpoint is the address that its host is, at its port. The service of it starts
with the source of its kind, and after any requests `GET` at `/latest` and at `/health` has status
200. -/
theorem load_serves {path : ConfigPath} {value? : Option String} {c : Config}
    (h : Config.load path value? = .ok c) :
    c.validate = .ok () ∧
    (∃ address, IpAddress.parse? c.server.host = some address ∧
      c.server.endpoint = .ok ⟨address, c.server.port⟩) ∧
    (∃ s, start c = .ok s ∧ s.config = c ∧ s.source.label = c.source.kind.name ∧
      ∀ requests request moment, request.method = .get →
        request.path = "/latest" ∨ request.path = "/health" →
        ((s.run requests).2.respond request moment).1.status = 200) ∧
    (∃ q, c.source.ambient.humidity.value? = some q ∧ 0 ≤ q ∧ q ≤ 100) ∧
    (∃ q, c.source.ambient.temperatureC.value? = some q ∧ -50 ≤ q ∧ q ≤ 150) ∧
    c.source.address ≤ 0x7F ∧ c.source.ambient.lightRaw ≤ 4095 := by
  have hc : c.IsValid := Config.isValid_of_load h
  refine ⟨Config.validate_eq_ok_iff.2 hc, ServerConfig.endpoint_of_isSome hc.host, ?_, hc.humidity,
    hc.temperatureC, hc.address, hc.lightRaw⟩
  refine ⟨_, start_eq_ok_iff.2 ⟨hc, rfl⟩, rfl, Source.label_ofConfig c.source, ?_⟩
  intro requests request moment hmethod hpath
  rcases hpath with hpath | hpath
  · refine status_latest _ moment ?_ hmethod hpath
    -- A run leaves the source as it was, and only the number of its answers has grown.
    rw [run_source]
    exact Source.exists_answer_ofConfig c.source _ moment.now
  · exact status_health _ moment hmethod hpath

/-- A file that selects the simulated board, and a port in the environment. -/
theorem load_serves_simulated :
    let path := ConfigPath.file "source: {kind: simulated}\n".toUTF8
    ∃ c s, Config.load path (some " +8080 ") = .ok c ∧ c.source.kind = .simulated ∧
      c.server.port = 8080 ∧ start c = .ok s ∧ s.source.label = "simulated" ∧
      ((s.run [(⟨.head, "/latest"⟩, ⟨1, ⟨0⟩⟩)]).2.respond ⟨.get, "/latest?x"⟩
        ⟨2, ⟨0⟩⟩).1.status = 200 := by
  intro path
  have hfields : (Config.load path (some " +8080 ")).toOption.map
      (fun c ↦ (c.source.kind, c.server.port)) = some (.simulated, 8080) := by
    decide +kernel
  cases hload : Config.load path (some " +8080 ") with
  | error failure =>
    rw [hload] at hfields
    cases hfields
  | ok c =>
    rw [hload] at hfields
    have hpair : (c.source.kind, c.server.port) = (.simulated, 8080) := Option.some.inj hfields
    obtain ⟨hkind, hport⟩ := Prod.mk.inj hpair
    obtain ⟨-, -, ⟨s, hstart, -, hlabel, hstatus⟩, -⟩ := load_serves hload
    rw [hkind] at hlabel
    exact ⟨c, s, rfl, hkind, hport, hstart, hlabel,
      hstatus _ ⟨.get, "/latest?x"⟩ _ rfl (.inl (by decide +kernel))⟩

end Service
end Hygrometer
