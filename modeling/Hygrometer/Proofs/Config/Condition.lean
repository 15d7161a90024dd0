import Hygrometer.Proofs.Address.Reader
import Hygrometer.Proofs.Config.Validity

/-!
# The conditions of a configuration, one after another

Seven conditions, each said without the check that decides it (`Condition.Holds`), in the order in
which they are looked at (`Condition.all`). The nested validators are one pass over their checks
(`validate_eq_forM`), and a pass ends at the first check that fails (`forM_require_eq_error_iff`).
So what is reported is the first condition that does not hold, whatever is wrong behind it.

**What a condition asks for** is said of the values themselves. A measurement has a value between
two bounds, so that infinities and what is not a number are out without being named; the address has
to be of the grammar of addresses; and the name of the service needs a character that is not a
blank. That the checks decide these is `check_eq_true_iff`, with one case for each condition.

**The endpoint** is what starting the server makes of the address and the port, and it looks at the
address again. It succeeds exactly for the addresses that validation accepts
(`ServerConfig.endpoint_eq_ok_iff`), and refuses the others with the same words
(`ServerConfig.endpoint_eq_error_iff`), so a configuration that was accepted cannot fail there.
-/

namespace Hygrometer

/-- What a configuration is checked for. -/
inductive Condition where
  /-- The version of the format. -/
  | version
  /-- The address to listen on. -/
  | host
  /-- The name of the service. -/
  | serviceName
  /-- The bus address of the climate sensor. -/
  | address
  /-- The simulated humidity. -/
  | humidity
  /-- The simulated temperature. -/
  | temperatureC
  /-- The simulated light sample. -/
  | lightRaw
deriving DecidableEq

namespace Condition

/-- The conditions in the order in which they are looked at. -/
def all : List Condition :=
  [version, host, serviceName, address, humidity, temperatureC, lightRaw]

/-- What each condition asks for. -/
def Holds : Condition → Config → Prop
  | version, c => c.version = 1
  | host, c => IpAddress.IsText c.server.host
  | serviceName, c => ∃ x ∈ c.server.serviceName.toList, Text.isBlank x = false
  | address, c => c.source.address.toNat ≤ 0x7F
  | humidity, c => ∃ q, c.source.ambient.humidity.value? = some q ∧ 0 ≤ q ∧ q ≤ 100
  | temperatureC, c => ∃ q, c.source.ambient.temperatureC.value? = some q ∧ -50 ≤ q ∧ q ≤ 150
  | lightRaw, c => c.source.ambient.lightRaw.toNat ≤ 4095

/-- What is reported if the condition does not hold. -/
def invalid : Condition → Config → Invalid
  | version, c => .version c.version
  | host, _ => .host
  | serviceName, _ => .serviceName
  | address, _ => .address
  | humidity, _ => .humidity
  | temperatureC, _ => .temperature
  | lightRaw, _ => .light

/-- The check that decides the condition. -/
def check : Condition → Config → Bool
  | version, c => c.version = 1
  | host, c => (IpAddress.parse? c.server.host).isSome
  | serviceName, c => !Text.isBlankText c.server.serviceName
  | address, c => c.source.address ≤ 0x7F
  | humidity, c => c.source.ambient.humidity.within 0 100
  | temperatureC, c => c.source.ambient.temperatureC.within (-50) 150
  | lightRaw, c => c.source.ambient.lightRaw ≤ Light.maxSample

theorem mem_all (k : Condition) : k ∈ all := by
  rcases k with - | - | - | - | - | - | - <;> decide

/-- **Each check decides its condition.** -/
theorem check_eq_true_iff {k : Condition} {c : Config} : k.check c = true ↔ k.Holds c := by
  rcases k with - | - | - | - | - | - | -
  · show decide (c.version = 1) = true ↔ c.version = 1
    exact decide_eq_true_iff
  · exact IpAddress.isSome_parse?_iff
  · show (!Text.isBlankText c.server.serviceName) = true ↔ _
    simp [Text.isBlankText, Holds]
  · show decide (c.source.address ≤ 0x7F) = true ↔ _
    rw [decide_eq_true_iff, UInt8.le_iff_toNat_le]
    rfl
  · exact Binary64.isRange_percent.within_iff
  · exact Binary64.isRange_celsius.within_iff
  · show decide (c.source.ambient.lightRaw ≤ Light.maxSample) = true ↔ _
    rw [decide_eq_true_iff, UInt16.le_iff_toNat_le]
    rfl

/-- Only the version's report depends on the configuration; all of them are bad requests. -/
theorem kind_toFailure_invalid (k : Condition) (c : Config) :
    (k.invalid c).toFailure.kind = .badRequest := rfl

end Condition

/-! ### Passes over checks -/

section

variable {α : Type} {test : α → Bool} {reason : α → Invalid}

theorem forM_require_eq_ok_iff {ks : List α} :
    forM ks (fun k ↦ require (test k) (reason k)) = .ok () ↔ ∀ k ∈ ks, test k = true := by
  induction ks with
  | nil => simp [pure, Except.pure]
  | cons k ks ih =>
    rw [List.forM_cons, Except.andThen_eq_ok_iff, require_eq_ok_iff, List.forall_mem_cons]
    exact and_congr_right fun _ ↦ ih

theorem require_eq_error_iff {condition : Bool} {r r' : Invalid} :
    require condition r = .error r' ↔ condition = false ∧ r' = r := by
  rcases condition with - | - <;> simp [require, eq_comm]

/-- **A pass ends at the first check that fails.** -/
theorem forM_require_eq_error_iff {ks : List α} {r : Invalid} :
    forM ks (fun k ↦ require (test k) (reason k)) = .error r ↔
      ∃ before k after, ks = before ++ k :: after ∧ (∀ j ∈ before, test j = true) ∧
        test k = false ∧ r = reason k := by
  induction ks with
  | nil => simp [pure, Except.pure]
  | cons k ks ih =>
    rw [List.forM_cons, Except.bind_eq_error_iff, require_eq_error_iff]
    constructor
    · rintro (⟨hk, rfl⟩ | ⟨⟨⟩, hk, hrest⟩)
      · exact ⟨[], k, ks, rfl, by simp, hk, rfl⟩
      · obtain ⟨before, j, after, rfl, hbefore, hj, rfl⟩ := ih.1 hrest
        have hk : test k = true := require_eq_ok_iff.1 hk
        exact ⟨k :: before, j, after, rfl, List.forall_mem_cons.2 ⟨hk, hbefore⟩, hj, rfl⟩
    · rintro ⟨before, j, after, heq, hbefore, hj, rfl⟩
      rcases before with - | ⟨k', before⟩
      · obtain ⟨rfl, rfl⟩ := List.cons.inj heq
        exact .inl ⟨hj, rfl⟩
      · obtain ⟨rfl, rfl⟩ := List.cons.inj heq
        obtain ⟨hk, hbefore⟩ := List.forall_mem_cons.1 hbefore
        exact .inr ⟨(), require_eq_ok_iff.2 hk, ih.2 ⟨before, j, after, rfl, hbefore, hj, rfl⟩⟩

end

namespace Config

/-- **The validators are one pass.** -/
theorem validate_eq_forM (c : Config) :
    c.validate = forM Condition.all fun k ↦ require (k.check c) (k.invalid c) := by
  simp only [validate, ServerConfig.validate, SourceConfig.validate, Ambient.validate, bind_assoc,
    Condition.all, List.forM_cons, List.forM_nil, bind_pure_unit]
  rfl

end Config

/-- **What a server listens on** is the address that its host denotes, at its port. -/
theorem ServerConfig.endpoint_eq_ok_iff {c : ServerConfig} {e : Endpoint} :
    c.endpoint = .ok e ↔ IpAddress.Denotes c.host.toList e.address ∧ e.port = c.port := by
  rw [← IpAddress.parse?_eq_some_iff, endpoint]
  obtain ⟨address, port⟩ := e
  rcases IpAddress.parse? c.host with - | read <;> simp [eq_comm]

/-- An endpoint fails for the host alone. -/
theorem ServerConfig.endpoint_eq_error_iff {c : ServerConfig} {r : Invalid} :
    c.endpoint = .error r ↔ ¬IpAddress.IsText c.host ∧ r = .host := by
  rw [← IpAddress.isSome_parse?_iff, endpoint]
  rcases IpAddress.parse? c.host with - | address <;> simp [eq_comm]

namespace Config

/-- **What is valid, and what is reported otherwise.** A configuration is valid exactly if all
conditions hold. If not, the first in their order that does not is reported, as a bad request, and
nothing else is. The port, the kind of source, the pin of the light sensor and the texts of the page
play no part. The endpoint fails exactly if the condition on the host does not hold, with the report
that this condition has. -/
theorem validate_reports_first (c : Config) :
    (c.validate = .ok () ↔ ∀ k : Condition, k.Holds c) ∧
    (∀ r, c.validate = .error r ↔ ∃ before k after, Condition.all = before ++ k :: after ∧
      (∀ j ∈ before, j.Holds c) ∧ ¬k.Holds c ∧ r = k.invalid c) ∧
    (∀ k : Condition, (k.invalid c).toFailure.kind = .badRequest) ∧
    (∀ port kind lightPin page, ({ c with
      server.port := port, source.kind := kind, source.lightPin := lightPin, page } :
        Config).validate = c.validate) ∧
    ∀ r, c.server.endpoint = .error r ↔
      ¬Condition.host.Holds c ∧ r = Condition.host.invalid c := by
  refine ⟨?_, fun r ↦ ?_, fun k ↦ k.kind_toFailure_invalid c, fun port kind lightPin page ↦ ?_,
    fun r ↦ ServerConfig.endpoint_eq_error_iff⟩
  · rw [validate_eq_forM, forM_require_eq_ok_iff]
    exact ⟨fun h k ↦ Condition.check_eq_true_iff.1 (h k k.mem_all),
      fun h k _ ↦ Condition.check_eq_true_iff.2 (h k)⟩
  · rw [validate_eq_forM, forM_require_eq_error_iff]
    simp only [Condition.check_eq_true_iff, ← Bool.not_eq_true]
  · rfl

/-- A configuration without an address, with a blank name and without a number for the humidity. The
address is reported, although the source is the one that needs no humidity. -/
theorem validate_reports_first_nameless :
    let c : Config := { server := { host := "::1%lo", serviceName := "\u2003\n" }
                        source := { kind := .stub, ambient := { humidity := .nan } } }
    c.validate = .error .host ∧ ¬Condition.serviceName.Holds c ∧ ¬Condition.humidity.Holds c ∧
      c.server.endpoint = .error .host := by
  intro c
  obtain ⟨-, herror, -, -, hendpoint⟩ := validate_reports_first c
  have hfails (k : Condition) (h : k.check c = false) : ¬k.Holds c := by
    rw [← Condition.check_eq_true_iff, h]
    decide
  have hversion : Condition.version.Holds c := rfl
  have hhost := hfails .host (by decide +kernel)
  refine ⟨(herror .host).2 ⟨[.version], .host, _, rfl, ?_, hhost, rfl⟩,
    hfails .serviceName (by decide +kernel), hfails .humidity (by decide +kernel),
    (hendpoint .host).2 ⟨hhost, rfl⟩⟩
  simpa using hversion

end Config
end Hygrometer
