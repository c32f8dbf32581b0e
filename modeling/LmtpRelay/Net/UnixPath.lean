/-
Paths of local sockets. A path is that of a file, unless it begins with a null character: then the rest of it is an
abstract name, which has nothing to do with files. Either has to fit into the field for it in a socket address; what
does not is refused before anything is looked for.
-/
import LmtpRelay.Text.Octets

namespace LmtpRelay.Net.UnixPath

def fieldLength : Nat := 108

/-- the character that may only stand at the start -/
def null : Char := Char.ofNat 0

def abstractName? (path : String) : Option (List Char) :=
  match path.toList with
  | c :: name => if c = null then some name else none
  | [] => none

/-- why a path cannot be that of a socket, whatever files there are; the field has to hold the null character before an
abstract name or after the path of a file -/
def fault? (path : String) : Option IoFailure :=
  match abstractName? path with
  | some _ =>
    if fieldLength < path.utf8ByteSize then some ⟨"abstract socket name must be shorter than SUN_LEN"⟩ else none
  | none =>
    if path.toList.contains null then some ⟨"paths must not contain interior null bytes"⟩
    else if fieldLength ≤ path.utf8ByteSize then some ⟨"path must be shorter than SUN_LEN"⟩
    else none

end LmtpRelay.Net.UnixPath
