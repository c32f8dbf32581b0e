/-
Listen addresses: the path of a local socket after the word unix and a colon, or a socket address.
-/
import LmtpRelay.Net.Socket

namespace LmtpRelay

inductive ListenAddress where
  | unix (path : String)
  | tcp (socket : Net.Socket)

namespace ListenAddress

/-- the word in front of the path of a local socket -/
def unixMark : List Char := "unix:".toList

def parse? (s : String) : Option ListenAddress :=
  if unixMark.isPrefixOf s.toList then
    let path := s.toList.drop unixMark.length
    if path.isEmpty then none else some (.unix (String.ofList path))
  else (Net.Socket.parse? s.toList).map .tcp

def text : ListenAddress → String
  | unix path => s!"unix:{path}"
  | tcp socket => socket.text

def transport : ListenAddress → String
  | unix _ => "unix"
  | tcp _ => "tcp"

end ListenAddress
end LmtpRelay
