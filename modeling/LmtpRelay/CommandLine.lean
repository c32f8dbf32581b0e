/-
The command line: which options there are, and what the program does before it begins to serve. Help and version are
shown as soon as they are asked for; the configuration file may be named once.
-/
import LmtpRelay.Config.Location
import LmtpRelay.Server.Error
import LmtpRelay.Text.Fold
import LmtpRelay.Text.Numeral

namespace LmtpRelay

/-! ## Arguments -/

/-- what the arguments ask for -/
inductive Request where
  | help
  | version
  /-- serve, with a configuration file that was named -/
  | serve (config : Option String)
  /-- the arguments make no sense -/
  | misuse
  deriving DecidableEq, Repr

namespace CommandLine

inductive Argument where
  | help
  | version
  /-- the option for the configuration file, with a value attached -/
  | config (value : Option String)
  /-- nothing but other arguments follows -/
  | separator
  | other
  deriving DecidableEq, Repr

def Argument.ofList : List Char → Argument
  | ['-', '-'] => .separator
  | '-' :: '-' :: name =>
    match String.ofList name, Text.splitOnce '=' name with
    | "help", _ => .help
    | "version", _ => .version
    | "config", _ => .config none
    | _, some (key, value) => if key = "config".toList then .config (some (String.ofList value)) else .other
    | _, none => .other
  | '-' :: 'h' :: _ => .help
  | '-' :: 'V' :: _ => .version
  | ['-', 'c'] => .config none
  | '-' :: 'c' :: '=' :: value => .config (some (String.ofList value))
  | '-' :: 'c' :: value => .config (some (String.ofList value))
  | _ => .other

/-- whether an argument can be the value of the option in front of it -/
def isValue (arg : String) : Bool := arg = "-" || !arg.startsWith "-"

/-- read arguments; `config` is the file that was named by those before -/
def parseFrom (config : Option String) : List String → Request
  | [] => .serve config
  | arg :: rest =>
    match Argument.ofList arg.toList with
    | .help => .help
    | .version => .version
    | .separator => if rest.isEmpty then .serve config else .misuse
    | .other => .misuse
    | .config (some value) =>
      if value.isEmpty || config.isSome then .misuse else parseFrom (some value) rest
    | .config none =>
      match rest with
      | value :: rest =>
        if !isValue value || value.isEmpty || config.isSome then .misuse else parseFrom (some value) rest
      | [] => .misuse

def parse (args : List String) : Request := parseFrom none args

/-! ## What is shown -/

def versionText : String := "lmtp-bridge 0.1.0\n"

def helpText : String :=
  "An LMTP bridge that rewrites envelope recipients and relays per-recipient status\n\n"
    ++ "Usage: lmtp-bridge [OPTIONS]\n\nOptions:\n"
    ++ "  -c, --config <CONFIG>  Path to the configuration file\n"
    ++ "  -h, --help             Print help\n"
    ++ "  -V, --version          Print version\n"

def failureText (message : String) (cause : Option String) : String :=
  match cause with
  | some cause => s!"Error: {message}\n\nCaused by:\n    {cause}\n"
  | none => s!"Error: {message}\n"

def configCause : ConfigError → Option String
  | .read _ failure => some failure.text
  | .parse _ fault => some fault.message
  | _ => none

def serverCause : ServerError → Option String
  | .bind _ failure | .accept failure => some failure.text
  | _ => none

/-! ## How much is logged -/

/-- the environment variable for how much is logged -/
def logLevelName : String := "LOG_LEVEL"

/-- the words for how much is logged; they may be written in any case, or as a number from 0 to 5 -/
def logLevels : List String := ["", "off", "error", "warn", "info", "debug", "trace"]

/-- whether a text says how much is logged -/
def isLogLevel (s : String) : Bool :=
  (Text.numeral? 5 s.toList).isSome || logLevels.any fun level => Text.sameFolded s.toList level.toList

/-- what is said about a text that does not say how much is logged -/
def logLevelNotice (level : Option String) : String :=
  match level with
  | some level => if isLogLevel level then "" else s!"Invalid log level specified {level}, defaulting to trace\n"
  | none => ""

/-! ## The start of the program -/

/-- how far the program comes before it serves -/
inductive Launch where
  /-- it ends with a code and what it has written -/
  | exit (code : Nat) (output errors : String)
  /-- it serves with a configuration, after what it has written to its errors -/
  | serve (config : Config) (errors : String)

/-- what the surroundings of the program look like -/
structure Environment where
  /-- the value of a variable -/
  value : String → Option String
  /-- whether a path leads to something -/
  leads : String → Bool
  /-- the text of the file at a path -/
  read : String → Except IoFailure String
  /-- why no listener can be made at an address -/
  bindFault : ListenAddress → Option IoFailure

def configuration (env : Environment) (explicit : Option String) : Except ConfigError Config := do
  let path ← ConfigFile.find env.leads explicit (env.value ConfigFile.environmentName)
  ConfigFile.load path (env.read path)

/-- the failure of a server that is to serve at an address, if it cannot -/
def serveFault? (env : Environment) (address : ListenAddress) : Option ServerError :=
  match env.bindFault address, address with
  | some failure, _ => some (.bind address.text failure)
  | none, .tcp _ => some (.unsupportedTransport address.transport)
  | none, .unix _ => none

/-- do what the arguments ask for, up to serving -/
def launch (env : Environment) (args : List String) : Launch :=
  match parse args with
  | .help => .exit 0 helpText ""
  | .version => .exit 0 versionText ""
  | .misuse => .exit 2 "" ""
  | .serve explicit =>
    match configuration env explicit with
    | .error error => .exit 1 "" (failureText error.message (configCause error))
    | .ok config =>
      let notice := logLevelNotice (env.value logLevelName)
      match serveFault? env config.listen with
      | some error => .exit 1 "" (notice ++ failureText error.message (serverCause error))
      | none => .serve config notice

end CommandLine
end LmtpRelay
