import Hygrometer.Acquisition
import Hygrometer.Address.Parser
import Hygrometer.Frame
import Hygrometer.Text.Basic

/-!
# Configuration

What an operator can set: where the service listens, where its readings come from, what the
simulated board reports, and the texts of the page. Every setting has a default.

A valid configuration meets seven conditions, which are looked at in a fixed order. The first that
fails is the one that is reported. The conditions on the simulated board hold whether or not the
source is a simulated one.

## Main definitions

* `Config` – a whole configuration, with its defaults.
* `Invalid` – why a configuration is not valid.
* `Config.validate` – the check of a whole configuration.
* `ServerConfig.endpoint` – where a server listens.
-/

namespace Hygrometer

/-! ### Settings -/

/-- Where the service listens and what it is called. -/
structure ServerConfig where
  /-- The internet address to listen on, as it was written. -/
  host : String := "0.0.0.0"
  /-- The port to listen on. -/
  port : UInt16 := 3001
  /-- The name that the health answer gives. -/
  serviceName : String := "backend"
deriving DecidableEq

/-- Where readings come from. -/
inductive SourceKind where
  /-- Nowhere: every reading is zero. -/
  | stub
  /-- From a simulated board. -/
  | simulated
deriving DecidableEq, Repr

/-- The name of a kind of source, in documents and in metrics. -/
def SourceKind.name : SourceKind → String
  | stub => "stub"
  | simulated => "simulated"

/-- The conditions that the simulated board reports. -/
structure Ambient where
  /-- Relative humidity in percent. -/
  humidity : Binary64 := 45
  /-- Temperature in degrees Celsius. -/
  temperatureC : Binary64 := 22
  /-- The light sensor's sample. -/
  lightRaw : UInt16 := 2048
deriving DecidableEq

/-- Where readings come from, and how the board is wired. -/
structure SourceConfig where
  /-- The kind of source. -/
  kind : SourceKind := .stub
  /-- The bus address of the climate sensor. -/
  address : UInt8 := Frame.defaultAddress
  /-- The pin of the light sensor. -/
  lightPin : UInt8 := Light.defaultPin
  /-- The simulated conditions. -/
  ambient : Ambient := {}
deriving DecidableEq

/-- The texts of the page. -/
structure PageTexts where
  /-- The title. -/
  title : String := "Humidity Sensor UI"
  /-- The caption. -/
  caption : String := "Static placeholder panel"
  /-- The label of the button. -/
  buttonLabel : String := "Test Button"
deriving DecidableEq

/-- The whole configuration. -/
structure Config where
  /-- The version of the format. -/
  version : UInt32 := 1
  /-- Where the service listens. -/
  server : ServerConfig := {}
  /-- Where readings come from. -/
  source : SourceConfig := {}
  /-- The texts of the page. -/
  page : PageTexts := {}
deriving DecidableEq

/-- The name of the configuration file that is read unless another is given. -/
def Config.defaultPath : String := "humisense.yaml"

/-! ### Validity -/

/-- Why a configuration is not valid. -/
inductive Invalid where
  /-- The version of the format is not 1. -/
  | version (found : UInt32)
  /-- The host is no internet address. -/
  | host
  /-- The name of the service is blank. -/
  | serviceName
  /-- The bus address has more than seven bits. -/
  | address
  /-- The simulated humidity is not between 0 and 100. -/
  | humidity
  /-- The simulated temperature is not between -50 and 150. -/
  | temperature
  /-- The simulated light sample has more than twelve bits. -/
  | light
deriving DecidableEq

namespace Invalid

/-- What is wrong, in words. -/
def describe : Invalid → String
  | version found => "unsupported config version: " ++ Text.numeral found.toNat
  | host => "server.host must be an IP address: invalid IP address syntax"
  | serviceName => "server.service_name must not be empty"
  | address => "source.dht20_addr must be a 7-bit I2C address"
  | humidity => "source.simulated.humidity must be between 0 and 100"
  | temperature => "source.simulated.temperature_c must be between -50 and 150"
  | light => "source.simulated.light_raw must fit in 12 bits"

/-- The failure that a client sees. -/
def toFailure (i : Invalid) : Failure := ⟨.badRequest, i.describe⟩

end Invalid

/-- Refuse for a reason, if a condition fails. -/
def require (condition : Bool) (reason : Invalid) : Except Invalid Unit :=
  if condition then .ok () else .error reason

@[simp] theorem require_eq_ok_iff {condition : Bool} {reason : Invalid} :
    require condition reason = .ok () ↔ condition = true := by
  cases condition <;> simp [require]

/-- Where a server listens, if its host is an internet address. -/
def ServerConfig.endpoint (c : ServerConfig) : Except Invalid Endpoint :=
  match IpAddress.parse? c.host with
  | some address => .ok ⟨address, c.port⟩
  | none => .error .host

/-- Check where the service listens and what it is called. -/
def ServerConfig.validate (c : ServerConfig) : Except Invalid Unit := do
  require (IpAddress.parse? c.host).isSome .host
  require (!Text.isBlankText c.serviceName) .serviceName

/-- Check the simulated conditions. -/
def Ambient.validate (c : Ambient) : Except Invalid Unit := do
  require (c.humidity.within 0 100) .humidity
  require (c.temperatureC.within (-50) 150) .temperature
  require (c.lightRaw ≤ Light.maxSample) .light

/-- Check where readings come from. The simulated conditions are checked for every kind of
source. -/
def SourceConfig.validate (c : SourceConfig) : Except Invalid Unit := do
  require (c.address ≤ 0x7F) .address
  c.ambient.validate

/-- Check a whole configuration. -/
def Config.validate (c : Config) : Except Invalid Unit := do
  require (c.version = 1) (.version c.version)
  c.server.validate
  c.source.validate

end Hygrometer
