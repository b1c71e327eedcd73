import Amqp.Link.Receiver
import Amqp.Link.Sender

/-!
# Links

The local end of a link, which sends or receives.  Every event that a session hands to a link gives
the changed link and its outputs.
-/

namespace Amqp

/-- The local end of a link. -/
inductive Link where
  | sender (v : Link.Sender)
  | receiver (v : Link.Receiver)

namespace Link

/-- What both kinds of end have in common. -/
def endpoint : Link → Endpoint
  | sender s => s.endpoint
  | receiver r => r.endpoint

/-- The link with another endpoint. -/
def withEndpoint (e : Endpoint) : Link → Link
  | sender s => sender { s with endpoint := e }
  | receiver r => receiver { r with endpoint := e }

/-- The local end of a link that the peer attaches; it plays the part opposite to the peer's. -/
def ofAttach (attach : Attach) (handle : UInt32) (settings : Settings.Link) : Except Fault Link :=
  match attach.role.opposite with
  | .sender => sender <$> Sender.create attach.name handle attach.source attach.target settings
  | .receiver =>
    receiver <$> Receiver.create attach.name handle attach.source attach.target settings

/-- The sending end, if it is one. -/
def sender? : Link → Option Sender
  | sender s => some s
  | receiver _ => none

/-- The receiving end, if it is one. -/
def receiver? : Link → Option Receiver
  | sender _ => none
  | receiver r => some r

/-- Follows a change of the session's state. -/
def followSession (state : Session.State) : Link → Link × List Output
  | sender s =>
    let (e, outputs) := s.endpoint.followSession state
    (sender { s with endpoint := e }, outputs)
  | receiver r =>
    let (r, outputs) := r.followSession state
    (receiver r, outputs)

/-- Attaches a detached link, also one that has been closed.  The session must be mapped. -/
def attach (l : Link) : Link × List Output :=
  let (e, outputs) := { l.endpoint with isClosed := false }.followSession .mapped
  (l.withEndpoint e, outputs)

/-- Begins to detach. -/
def detach (close : Bool) (error : Option ErrorInfo) (l : Link) : Link × List Output :=
  let (e, outputs) := l.endpoint.detach close error
  (l.withEndpoint e, outputs)

/-- Lets the timers of the link act. -/
def evaluate (now : Nat) : Link → Link
  | sender s => sender (s.evaluate now)
  | receiver r => receiver r

/-- Takes the peer's attach. -/
def onAttach (attach : Attach) : Link → Link × List Output
  | sender s =>
    let (e, outputs, _) := s.endpoint.onAttach attach
    (sender { s with endpoint := e }, outputs)
  | receiver r =>
    let (r, outputs) := r.onAttach attach
    (receiver r, outputs)

/-- Takes the peer's flow. -/
def onFlow (flow : Flow) : Link → Link × List Output
  | sender s =>
    let (s, outputs) := s.onFlow flow
    (sender s, outputs)
  | receiver r =>
    let (r, outputs) := r.onFlow flow
    (receiver r, outputs)

/-- Takes a transfer. -/
def onTransfer (transfer : Transfer) : Link → Except Fault (Link × List Output)
  | sender s => .error (s.transferFault transfer)
  | receiver r => do
    let (r, outputs) ← r.onTransfer transfer
    return (receiver r, outputs)

/-- Takes the peer's disposition. -/
def onDisposition (disposition : Disposition) : Link → Link × List Output
  | sender s =>
    let (s, outputs) := s.onDisposition disposition
    (sender s, outputs)
  | receiver r => (receiver (r.onDisposition disposition), [])

/-- Takes the peer's detach. -/
def onDetach (detach : Detach) : Link → Link × List Output
  | sender s =>
    let (e, outputs) := s.endpoint.onDetach detach
    (sender { s with endpoint := e }, outputs)
  | receiver r =>
    let (r, outputs) := r.onDetach detach
    (receiver r, outputs)

end Link

end Amqp
