/-
The failures of the system that the program meets, in the system's own words.
-/
import LmtpRelay.Text.Octets

namespace LmtpRelay.SystemFault

def noSuchFile : IoFailure := ⟨"No such file or directory (os error 2)"⟩

/-- a part of a path that should be a directory is none -/
def notADirectory : IoFailure := ⟨"Not a directory (os error 20)"⟩

def isADirectory : IoFailure := ⟨"Is a directory (os error 21)"⟩

def invalidArgument : IoFailure := ⟨"Invalid argument (os error 22)"⟩

def nameTooLong : IoFailure := ⟨"File name too long (os error 36)"⟩

def addressInUse : IoFailure := ⟨"Address already in use (os error 98)"⟩

def addressNotAvailable : IoFailure := ⟨"Cannot assign requested address (os error 99)"⟩

/-- nobody listens at the address to connect to -/
def connectionRefused : IoFailure := ⟨"Connection refused (os error 111)"⟩

end LmtpRelay.SystemFault
