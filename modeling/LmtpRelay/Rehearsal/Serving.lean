/-
A server that serves peers one after another and is then closed. Each peer sends all its input at once and ends its
side.
-/
import LmtpRelay.Rehearsal.Downstream
import LmtpRelay.Server.Connection
import LmtpRelay.Server.Shutdown

namespace LmtpRelay.Rehearsal

/-- serve a peer that has sent all its input -/
def converse (settings : ServerSettings) (id : Nat) (dial : Dial Server) (input : Octets) :
    ServerSettings.Served Server :=
  settings.serve id .calm Server.peer dial 0 ⟨[⟨0, input⟩], [⟨0, .closed⟩]⟩

/-- the steps of one call that serves and one that closes. Where nobody connects, the close comes before the server is
looked at, as it does when that is asked for. -/
def servingSteps (closeFirst : Bool) (connections : Nat) : List ServerStep :=
  let opening := [ServerStep.subscribe 0, .check 0]
  let close := [ServerStep.mark 0, .signal 0]
  if closeFirst || connections = 0 then close ++ opening
  else opening ++ List.replicate connections (.accept 0) ++ close ++ [.receive 0]

/-- what a server on a local socket comes to: how many peers it has served, its result and whether it is closed -/
def servingOutcome (closeFirst : Bool) (connections : Nat) : Nat × Except ServerError Unit × Bool :=
  let state := (Shutdown.initial 1 1).run (servingSteps closeFirst connections)
  (state.serving.foldr (fun call others => call.accepted + others) 0, (state.result? 0).getD (.ok ()), state.closed)

end LmtpRelay.Rehearsal
