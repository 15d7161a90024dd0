import Hygrometer.Config.Load
import Hygrometer.Proofs.Binary64.Exact
import Hygrometer.Proofs.Except

/-!
# Every loaded configuration is valid

`Config.IsValid` says what a valid configuration is, without the order in which `validate` looks at
things (`validate_eq_ok_iff`). Loading validates the file and then changes the port, and it never
validates the defaults that stand in for a missing file; neither does harm, because no condition
speaks of the port (`IsValid.of_overridePort`) and the defaults meet them all (`isValid_default`).

The conditions are those of the sections: the validators of the server, the source and the ambient
conditions are taken apart one by one, and the whole is their conjunction. A text that was parsed is
valid because parsing ends with the check (`isValid_of_parse`), and a blank text, which is not
checked, describes the defaults.
-/

namespace Hygrometer

/-- A valid configuration. -/
structure Config.IsValid (c : Config) : Prop where
  /-- The version of the format is 1. -/
  version : c.version = 1
  /-- The host is an internet address. -/
  host : (IpAddress.parse? c.server.host).isSome
  /-- The service has a name. -/
  serviceName : Text.isBlankText c.server.serviceName = false
  /-- The bus address has seven bits. -/
  address : c.source.address ≤ 0x7F
  /-- The humidity is a number of percent. -/
  humidity : ∃ q, c.source.ambient.humidity.value? = some q ∧ 0 ≤ q ∧ q ≤ 100
  /-- The temperature is a number in the range of the sensor. -/
  temperatureC : ∃ q, c.source.ambient.temperatureC.value? = some q ∧ -50 ≤ q ∧ q ≤ 150
  /-- The light sample has twelve bits. -/
  lightRaw : c.source.ambient.lightRaw ≤ 4095

/-! ### What is checked -/

theorem ServerConfig.validate_eq_ok_iff {c : ServerConfig} :
    c.validate = .ok () ↔
      (IpAddress.parse? c.host).isSome ∧ Text.isBlankText c.serviceName = false := by
  rw [validate, Except.andThen_eq_ok_iff, require_eq_ok_iff, require_eq_ok_iff,
    Bool.not_eq_true']

theorem Ambient.validate_eq_ok_iff {c : Ambient} :
    c.validate = .ok () ↔
      (∃ q, c.humidity.value? = some q ∧ 0 ≤ q ∧ q ≤ 100) ∧
      (∃ q, c.temperatureC.value? = some q ∧ -50 ≤ q ∧ q ≤ 150) ∧ c.lightRaw ≤ 4095 := by
  rw [validate, Except.andThen_eq_ok_iff, Except.andThen_eq_ok_iff, require_eq_ok_iff,
    require_eq_ok_iff, require_eq_ok_iff, Binary64.isRange_percent.within_iff,
    Binary64.isRange_celsius.within_iff, decide_eq_true_eq]
  rfl

theorem SourceConfig.validate_eq_ok_iff {c : SourceConfig} :
    c.validate = .ok () ↔ c.address ≤ 0x7F ∧ c.ambient.validate = .ok () := by
  rw [validate, Except.andThen_eq_ok_iff, require_eq_ok_iff, decide_eq_true_eq]

namespace Config

/-- **What `validate` accepts.** -/
theorem validate_eq_ok_iff {c : Config} : c.validate = .ok () ↔ c.IsValid := by
  rw [validate, Except.andThen_eq_ok_iff, Except.andThen_eq_ok_iff, require_eq_ok_iff,
    decide_eq_true_eq, ServerConfig.validate_eq_ok_iff, SourceConfig.validate_eq_ok_iff,
    Ambient.validate_eq_ok_iff]
  constructor
  · rintro ⟨hversion, ⟨hhost, hname⟩, haddress, hhumidity, htemperature, hlight⟩
    exact ⟨hversion, hhost, hname, haddress, hhumidity, htemperature, hlight⟩
  · intro h
    exact ⟨h.version, ⟨h.host, h.serviceName⟩, h.address, h.humidity, h.temperatureC, h.lightRaw⟩

/-! ### What is loaded -/

/-- The defaults are valid, although nothing checks them. -/
theorem isValid_default : ({} : Config).IsValid := by
  refine validate_eq_ok_iff.1 ?_
  decide +kernel

theorem isValid_of_parse {s : String} {c : Config} (h : parse s = .ok c) : c.IsValid := by
  have hchecked (config : Config)
      (h : (config.validate.mapError (·.toFailure) >>= fun _ ↦ pure config) = .ok c) :
      c.IsValid := by
    rw [Except.andThen_eq_ok_iff, Except.mapError_eq_ok_iff] at h
    obtain ⟨hvalid, hpure⟩ := h
    cases hpure
    exact validate_eq_ok_iff.1 hvalid
  rw [parse] at h
  split at h
  · obtain ⟨config, -, h⟩ := Except.bind_eq_ok_iff.1 h
    exact hchecked config h
  · obtain ⟨config, -, h⟩ := Except.bind_eq_ok_iff.1 h
    exact hchecked config h

theorem isValid_of_loadFile {path : ConfigPath} {c : Config} (h : loadFile path = .ok c) :
    c.IsValid := by
  rw [loadFile, Except.bind_eq_ok_iff] at h
  obtain ⟨s, -, h⟩ := h
  exact isValid_of_parse h

/-- The variable `PORT` changes the port only, and no condition speaks of that. -/
theorem IsValid.of_overridePort {c c' : Config} {value? : Option String} (hc : c.IsValid)
    (h : c.overridePort value? = .ok c') : c'.IsValid := by
  rw [overridePort, Except.map_eq_ok_iff] at h
  obtain ⟨server, h, rfl⟩ := h
  rw [Except.mapError_eq_ok_iff, ServerConfig.overridePort, Except.map_eq_ok_iff] at h
  obtain ⟨port?, -, rfl⟩ := h
  exact ⟨hc.version, hc.host, hc.serviceName, hc.address, hc.humidity, hc.temperatureC, hc.lightRaw⟩

/-- **Every loaded configuration is valid.** -/
theorem isValid_of_load {path : ConfigPath} {value? : Option String} {c : Config}
    (h : load path value? = .ok c) : c.IsValid := by
  rcases path with - | - | content
  · exact isValid_default.of_overridePort h
  · obtain ⟨config, hfile, h⟩ := Except.bind_eq_ok_iff.1 h
    exact (isValid_of_loadFile hfile).of_overridePort h
  · obtain ⟨config, hfile, h⟩ := Except.bind_eq_ok_iff.1 h
    exact (isValid_of_loadFile hfile).of_overridePort h

end Config
end Hygrometer
