/-
Configurations: where to listen, where to pass mail on to, and the settings that have a standard value. A configuration
is accepted when the settings that must not be empty or zero are not.
-/
import LmtpRelay.Config.Timeouts
import LmtpRelay.Server.Listen
import LmtpRelay.Text.Blank
import LmtpRelay.Text.Octets

namespace LmtpRelay

structure Config where
  /-- where peers connect -/
  listen : ListenAddress
  /-- the socket of the downstream server -/
  forward : String
  /-- the name given to peers and to the downstream server -/
  hostname : String
  /-- the largest body accepted -/
  maxMessageSize : Nat
  timeouts : Timeouts
  /-- forwarding addresses by local part -/
  recipients : List (String × String)

/-- why a file does not spell a configuration -/
inductive ConfigFault where
  /-- the text cannot be read, or a value is of the wrong kind -/
  | malformed
  | missingField (name : String)
  | unknownField (name : String)
  | listen (address : String)
  deriving DecidableEq, Repr

/-- a setting that is not acceptable -/
inductive SettingFault where
  | emptyForward
  | emptyHostname
  | zeroMessageSize
  | zeroStatusWait
  | emptyTarget (identifier : String)
  deriving DecidableEq, Repr

def SettingFault.message : SettingFault → String
  | .emptyForward => "forward socket path must not be empty"
  | .emptyHostname => "hostname must not be empty"
  | .zeroMessageSize => "max_message_size must be greater than zero"
  | .zeroStatusWait => "timeouts.status_wait_secs must be greater than zero"
  | .emptyTarget identifier => s!"recipient '{identifier}' has an empty forwarding address"

/-- what can go wrong on the way to a configuration -/
inductive ConfigError where
  | read (path : String) (failure : IoFailure)
  | parse (path : String) (fault : ConfigFault)
  /-- there is no file in any of the places searched -/
  | notFound (searched : String)
  /-- a setting is not acceptable -/
  | invalid (reason : String)
  | listenAddress (address : String)
  deriving DecidableEq, Repr

def Config.fields : List String := ["listen", "forward", "hostname", "max_message_size", "timeouts", "recipients"]

/-- a name in the marks that faults put around it -/
def quotedName (name : String) : String := s!"`{name}`"

def ConfigFault.message : ConfigFault → String
  | .malformed => "malformed text or value"
  | .missingField name => s!"missing field {quotedName name}"
  | .unknownField name =>
    s!"unknown field {quotedName name}, expected one of " ++ ", ".intercalate (Config.fields.map quotedName)
  | .listen address => s!"Invalid listen address '{address}'"

def ConfigError.message : ConfigError → String
  | .read path failure => s!"Unable to read configuration file {path}: {failure.text}"
  | .parse path fault => s!"Invalid configuration file {path}: {fault.message}"
  | .notFound searched => s!"No configuration file found (searched: {searched})"
  | .invalid reason => s!"Invalid configuration: {reason}"
  | .listenAddress address => s!"Invalid listen address '{address}'"

/-- the first setting that is not acceptable -/
def Config.fault? (c : Config) : Option SettingFault :=
  if c.forward.isEmpty then some .emptyForward
  else if Text.isAllBlank c.hostname then some .emptyHostname
  else if c.maxMessageSize = 0 then some .zeroMessageSize
  else if c.timeouts.statusWaitSecs = 0 then some .zeroStatusWait
  else (c.recipients.find? fun r => Text.isAllBlank r.2).map fun r => .emptyTarget r.1

end LmtpRelay
