/-
Finding the configuration file. A path given on the command line comes before one given in the environment, and either
has to lead to something; without them the standard places are tried in order. Files are looked up in a tree below the
directory in which the program runs.
-/
import LmtpRelay.Config.Reader
import LmtpRelay.Net.UnixPath
import LmtpRelay.System.Fault

namespace LmtpRelay

/-! ## Files -/

/-- what a path leads to -/
inductive Found where
  | file (octets : Octets)
  | directory
  deriving DecidableEq, Repr

/-- files and directories by the parts of their paths; a path from the root has the root as its first part -/
structure FileTree where
  entries : List (List String × Found)
  deriving Repr

namespace FileTree

/-- the part that stands for the root -/
def root : String := "/"

def startOf (path : String) : List String := if path.startsWith "/" then [root] else []

def partsOf (path : String) : List String := (path.splitOn "/").filter (· ≠ "")

def ofNames (files : List (String × Found)) : FileTree :=
  ⟨files.map fun (name, found) => (startOf name ++ (partsOf name).filter (· ≠ "."), found)⟩

/-- whether nothing is known of a place but that it is a directory: where paths start, and what is above -/
def isStart (place : List String) : Bool := place = [root] || place.all (· = "..")

/-- what stands at a place; a place that others lie below is a directory -/
def at? (t : FileTree) (place : List String) : Option Found :=
  match t.entries.lookup place with
  | some found => some found
  | none => if isStart place || t.entries.any fun e => place.isPrefixOf e.1 then some .directory else none

/-- the place above a place, last part first -/
def above : List String → List String
  | [] => [".."]
  | part :: rest => if part = root then [root] else if part = ".." then ".." :: part :: rest else rest

/-- the place that a part of a path leads to from a place, last part first -/
def goTo (place : List String) (part : String) : List String :=
  if part = "." then place else if part = ".." then above place else part :: place

/-- walk on from a place, last part first -/
def walk (t : FileTree) (place : List String) : List String → Except IoFailure Found
  | [] => match t.at? place.reverse with
    | some found => .ok found
    | none => .error SystemFault.noSuchFile
  | part :: rest =>
    match t.at? place.reverse with
    | none => .error SystemFault.noSuchFile
    | some (.file _) => .error SystemFault.notADirectory
    | some .directory => walk t (goTo place part) rest

/-- how long a path may be, with its end -/
def pathLimit : Nat := 4096

/-- what a path leads to; a path that ends with a slash may only lead to a directory -/
def resolve (t : FileTree) (path : String) : Except IoFailure Found :=
  if path.isEmpty then .error SystemFault.noSuchFile
  else if pathLimit ≤ path.utf8ByteSize then .error SystemFault.nameTooLong
  else
    match t.walk (startOf path) (partsOf path) with
    | .ok (.file octets) => if path.endsWith "/" then .error SystemFault.notADirectory else .ok (.file octets)
    | other => other

/-- whether a path leads to something -/
def exists? (t : FileTree) (path : String) : Bool :=
  if path.toList.contains Net.UnixPath.null then false
  else match t.resolve path with
    | .ok _ => true
    | .error _ => false

def readText (t : FileTree) (path : String) : Except IoFailure String :=
  match t.resolve path with
  | .error failure => .error failure
  | .ok .directory => .error SystemFault.isADirectory
  | .ok (.file octets) =>
    match Octets.toText? octets with
    | some text => .ok text
    | none => .error .notText

/-- why a socket cannot be made as a file: what its path leads to is there, or the directory for it is not, or the path
wants a directory -/
def creationFault? (t : FileTree) (path : String) : Option IoFailure :=
  let parts := partsOf path
  match t.walk (startOf path) parts.dropLast with
  | .error failure => some failure
  | .ok (.file _) => some SystemFault.notADirectory
  | .ok .directory =>
    match t.walk (startOf path) parts with
    | .ok _ => some SystemFault.addressInUse
    | .error failure => if path.endsWith "/" then some failure else none

/-- why nobody can listen at the path of a socket -/
def listenFault? (t : FileTree) (path : String) : Option IoFailure :=
  (Net.UnixPath.fault? path).or
    (if (Net.UnixPath.abstractName? path).isSome then none else t.creationFault? path)

/-- why nobody can be reached at the path of a socket where nobody listens -/
def connectFault (t : FileTree) (path : String) : IoFailure :=
  (Net.UnixPath.fault? path).getD <|
    match Net.UnixPath.abstractName? path with
    | some [] => SystemFault.invalidArgument
    | some _ => SystemFault.connectionRefused
    | none =>
      if path.isEmpty then SystemFault.invalidArgument
      else match t.resolve path with
        | .ok _ => SystemFault.connectionRefused
        | .error failure => failure

end FileTree

/-! ## The configuration file -/

namespace ConfigFile

/-- the environment variable that may name the file -/
def environmentName : String := "LMTP_BRIDGE_CONFIG"

/-- the standard places, in order -/
def places : List String := ["./lmtp-bridge.toml", "/etc/lmtp-bridge/lmtp-bridge.toml"]

/-- a path that was asked for, and who asked for it -/
def named (explicit environment : Option String) : Option (String × String) :=
  (explicit.map fun path => (path, "--config")).or (environment.map fun path => (path, environmentName))

/-- the path of the file, given which paths lead to something -/
def find (leads : String → Bool) (explicit environment : Option String) : Except ConfigError String :=
  match named explicit environment with
  | some (path, source) => if leads path then .ok path else .error (.notFound s!"{path} (from {source})")
  | none =>
    match places.find? leads with
    | some path => .ok path
    | none => .error (.notFound (", ".intercalate places))

/-- the configuration in the file at a path, given what reading that gives -/
def load (path : String) (content : Except IoFailure String) : Except ConfigError Config := do
  Config.parse path (← content.mapError (ConfigError.read path))

end ConfigFile
end LmtpRelay
