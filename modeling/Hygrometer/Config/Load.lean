import Hygrometer.Config.Basic
import Hygrometer.Config.Document
import Hygrometer.Text.Quoted

/-!
# Loading the configuration

The defaults, then the file if there is one, then the variable `PORT`. A file that cannot be read or
is not valid is an error; the defaults never take its place.

The variable, when it is set, decides the port whatever the configuration says. Its value is a
decimal number of sixteen bits between blanks, with a plus sign at most.

## Main definitions

* `Port.ofVariable` – the port that the variable decides.
* `Config.parse` – the configuration that a text describes.
* `Config.load` – the configuration to run with.
-/

namespace Hygrometer

/-! ### The port in the environment -/

/-- Why a number is no port. -/
inductive NotAPort where
  /-- There are no digits, or another character comes among them. -/
  | badDigit
  /-- The number has more than sixteen bits. -/
  | tooLarge
deriving DecidableEq

/-- Why the variable decides no port. -/
inductive PortFault where
  /-- It is set to blanks. -/
  | blank
  /-- It holds something that is no port. -/
  | invalid (value : String) (reason : NotAPort)
deriving DecidableEq

/-- What is wrong with a number, in words. -/
def NotAPort.describe : NotAPort → String
  | badDigit => "invalid digit found in string"
  | tooLarge => "number too large to fit in target type"

/-- What is wrong with the variable, in words. -/
def PortFault.describe : PortFault → String
  | blank => "PORT is set but empty; unset it to use the configured port (default 3001)"
  | invalid value reason =>
    "PORT=" ++ Text.quoted value ++ " is not a valid port: " ++ reason.describe

/-- The failure that a client sees. -/
def PortFault.toFailure (f : PortFault) : Failure := ⟨.badRequest, f.describe⟩

namespace Port

/-- Append a digit to a port read so far. Of two faults, the first in the text counts, and a bad
digit before the size. -/
def append (port : UInt16) (c : Char) : Except NotAPort UInt16 :=
  match Text.digitValue? 10 c with
  | none => .error .badDigit
  | some d =>
    let next := 10 * port.toNat + d
    if next < UInt16.size then .ok (.ofNat next) else .error .tooLarge

/-- The port that a text without blanks around it denotes. -/
def read (cs : List Char) : Except NotAPort UInt16 :=
  let digits :=
    match cs with
    | '+' :: digits => digits
    | digits => digits
  if digits.isEmpty then .error .badDigit else digits.foldlM append 0

/-- The port that the variable decides, if it is set. -/
def ofVariable : Option String → Except PortFault (Option UInt16)
  | none => .ok none
  | some value =>
    if Text.isBlankText value then .error .blank
    else
      match read (Text.trim value.toList) with
      | .ok port => .ok (some port)
      | .error reason => .error (.invalid value reason)

end Port

/-- The configuration of a server once the variable `PORT` has been looked at. -/
def ServerConfig.overridePort (c : ServerConfig) (value? : Option String) :
    Except PortFault ServerConfig :=
  (Port.ofVariable value?).map fun port? ↦ { c with port := port?.getD c.port }

/-! ### Loading -/

/-- What stands at the path of the configuration file. -/
inductive ConfigPath where
  /-- Nothing. -/
  | missing
  /-- A directory. -/
  | directory
  /-- A file with octets in it. -/
  | file (content : ByteArray)

/-- Why a file cannot be read as text. -/
inductive Unreadable where
  /-- There is no file. -/
  | missing
  /-- It is a directory. -/
  | directory
  /-- Its octets are no UTF-8. -/
  | notUtf8
deriving DecidableEq

/-- What is wrong, in words. -/
def Unreadable.describe : Unreadable → String
  | missing => "No such file or directory (os error 2)"
  | directory => "Is a directory (os error 21)"
  | notUtf8 => "stream did not contain valid UTF-8"

/-- The failure that a client sees. -/
def Unreadable.toFailure (u : Unreadable) : Failure :=
  ⟨.internal, "read config failed: " ++ u.describe⟩

/-- The text of the file at a path. -/
def ConfigPath.read : ConfigPath → Except Unreadable String
  | missing => .error .missing
  | directory => .error .directory
  | file content =>
    match String.fromUTF8? content with
    | some text => .ok text
    | none => .error .notUtf8

namespace Config

/-- The configuration that a text describes. A blank text describes the defaults. -/
def parse (s : String) : Except Failure Config := do
  let config ←
    if Text.isBlankText s then pure {}
    else (ofDocument (.ofText s)).mapError (·.toFailure)
  config.validate.mapError (·.toFailure)
  pure config

/-- The configuration in the file at a path. -/
def loadFile (path : ConfigPath) : Except Failure Config := do
  parse (← path.read.mapError (·.toFailure))

/-- The configuration with the port that the variable `PORT` decides. -/
def overridePort (c : Config) (value? : Option String) : Except Failure Config :=
  ((c.server.overridePort value?).mapError (·.toFailure)).map fun server ↦ { c with server }

/-- The configuration to run with: the file at a path, or the defaults if there is none, and the
variable `PORT`. -/
def load (path : ConfigPath) (value? : Option String) : Except Failure Config := do
  let config ←
    match path with
    | .missing => pure {}
    | path => loadFile path
  config.overridePort value?

end Config
end Hygrometer
