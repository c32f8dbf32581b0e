/-
The program. It does what the command line asks for; a peer is served on the standard streams, from where no downstream
server can be reached.
-/
import LmtpRelay.CommandLine
import LmtpRelay.Server.Connection

namespace LmtpRelay.Program

/-- what reading a file gives; `none` where there is none -/
def readFile (path : String) : IO (Option (Except IoFailure String)) := do
  try
    let content ← IO.FS.readBinFile path
    match String.fromUTF8? content with
    | some text => return some (.ok text)
    | none => return some (.error .notText)
  catch e =>
    match e with
    | .noFileOrDirectory .. => return none
    | other => return some (.error ⟨toString other⟩)

def readFiles (paths : List String) : IO (List (String × Except IoFailure String)) := do
  let mut found := []
  for path in paths do
    if let some content ← readFile path then
      found := found ++ [(path, content)]
  return found

def candidates (args : List String) (environment : Option String) : List String :=
  let explicit := match CommandLine.parse args with
    | .serve (some path) => [path]
    | _ => []
  explicit ++ environment.toList ++ ConfigFile.places

/-- why no listener can be made at an address, as far as the address shows -/
def bindFault : ListenAddress → Option IoFailure
  | .unix path => Net.UnixPath.fault? path
  | .tcp socket => socket.listenFault?

def environment (args : List String) : IO CommandLine.Environment := do
  let config ← IO.getEnv ConfigFile.environmentName
  let level ← IO.getEnv CommandLine.logLevelName
  let files ← readFiles (candidates args config)
  return {
    value := fun name =>
      if name = ConfigFile.environmentName then config
      else if name = CommandLine.logLevelName then level
      else none
    leads := fun path => (files.lookup path).isSome
    read := fun path => (files.lookup path).getD (.error SystemFault.noSuchFile)
    bindFault }

end LmtpRelay.Program

open LmtpRelay in
def main (args : List String) : IO UInt32 := do
  match CommandLine.launch (← Program.environment args) args with
  | .exit code output errors =>
    IO.print output
    IO.eprint errors
    return UInt32.ofNat code
  | .serve _ errors =>
    IO.eprint errors
    IO.print ServerSettings.turnedAway.line
    return 0
