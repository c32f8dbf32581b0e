import LmtpRelay.Main
import LmtpRelay.Rehearsal.Delivery
import LmtpRelay.Rehearsal.Forwarder
import LmtpRelay.Rehearsal.Serving
import LmtpRelay.Rehearsal.Timeline
import LmtpRelay.Proofs.Command.ParameterList
import LmtpRelay.Proofs.Command.Spelling
import LmtpRelay.Proofs.Delivery.Refusals
import LmtpRelay.Proofs.Delivery.Replies
import LmtpRelay.Proofs.Downstream.Closing
import LmtpRelay.Proofs.Downstream.Codec
import LmtpRelay.Proofs.Downstream.Relaying
import LmtpRelay.Proofs.Downstream.Responses
import LmtpRelay.Proofs.Downstream.RoundTrip
import LmtpRelay.Proofs.Downstream.Synchrony
import LmtpRelay.Proofs.Engine.Lifetime
import LmtpRelay.Proofs.Engine.Thinning
import LmtpRelay.Proofs.Engine.Transcript
import LmtpRelay.Proofs.Server.Interleaving
import LmtpRelay.Proofs.Session.Course
import LmtpRelay.Proofs.Session.History
import LmtpRelay.Proofs.Session.InsertionOrder
import LmtpRelay.Proofs.Session.Resolved
import LmtpRelay.Proofs.Wire.LineByLine
