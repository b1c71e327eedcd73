import Amqp.Composite.Descriptor
import Amqp.Performative
import Amqp.Settings

/-!
# Link ends

What sending and receiving link ends have in common: the handshakes of attaching and detaching.  A
link end never writes frames itself.  Each event gives the changed end and the outputs that its
session is to send.
-/

namespace Amqp.Link

/-- What a link end asks its session to send.  A flow holds the link's fields only. -/
inductive Output where
  | attach (v : Attach)
  | flow (v : Flow)
  | disposition (v : Disposition)
  | detach (v : Detach)

/-- The state of one end of a link. -/
structure Endpoint where
  name : String
  handle : UInt32
  remoteHandle : Option UInt32 := none
  role : Role
  state : State := .detached
  source : Option Source := none
  target : Option Target := none
  senderSettleMode : SenderSettleMode
  receiverSettleMode : ReceiverSettleMode
  maxMessageSize : Option UInt64 := none
  remoteMaxMessageSize : Option UInt64 := none
  deliveryCount : UInt32 := 0
  linkCredit : UInt32 := 0
  isClosed : Bool := false
  remoteError : Option ErrorInfo := none

namespace Endpoint

/-- A detached end. -/
def create (name : String) (handle : UInt32) (role : Role) (source : Option Source)
    (target : Option Target) (settings : Settings.Link) : Except Fault Endpoint := do
  let senderSettleMode ← SenderSettleMode.ofCode settings.senderSettleMode
  let receiverSettleMode ← ReceiverSettleMode.ofCode settings.receiverSettleMode
  return {
    name, handle, role, source, target, senderSettleMode, receiverSettleMode
    maxMessageSize := settings.maxMessageSize }

/-- The attach that announces this end. -/
def toAttach (e : Endpoint) : Attach where
  name := e.name
  handle := e.handle
  role := e.role
  senderSettleMode := e.senderSettleMode
  receiverSettleMode := e.receiverSettleMode
  source := e.source
  target := e.target
  initialDeliveryCount :=
    match e.role with
    | .sender => some e.deliveryCount
    | .receiver => none
  maxMessageSize := e.maxMessageSize

/-- The flow that tells the peer the delivery count and the credit of this end. -/
def toFlow (e : Endpoint) : Flow where
  handle := e.handle
  deliveryCount := e.deliveryCount
  linkCredit := e.linkCredit

/-- Follows the session: a detached end that is not closed attaches once the session is mapped, and
every end is detached once the session is over. -/
def followSession (state : Session.State) (e : Endpoint) : Endpoint × List Output :=
  match state with
  | .mapped =>
    if !e.isClosed && e.state == .detached then
      ({ e with state := .attachSent }, [.attach e.toAttach])
    else (e, [])
  | .discarding | .unmapped => ({ e with state := .detached }, [])
  | _ => (e, [])

/-- Takes the peer's attach, answering it if this end has not attached by itself.  The flag tells
whether the attach completed the handshake. -/
def onAttach (attach : Attach) (e : Endpoint) : Endpoint × List Output × Bool :=
  let e :=
    { e with remoteHandle := some attach.handle, remoteMaxMessageSize := attach.maxMessageSize }
  match e.state with
  | .detached => ({ e with state := .attached }, [.attach e.toAttach], true)
  | .attachSent => ({ e with state := .attached }, [], true)
  | _ => (e, [], false)

/-- Begins to detach, with an error if there is one.  An end that is detached or has asked for it
already stays as it is. -/
def detach (close : Bool) (error : Option ErrorInfo) (e : Endpoint) : Endpoint × List Output :=
  match e.state with
  | .detached | .detachSent => (e, [])
  | _ =>
    ({ e with isClosed := close, state := if error.isSome then .error else .detachSent },
      [.detach { handle := e.handle, closed := close, error }])

/-- Takes the peer's detach, answering it if this end has not asked for it. -/
def onDetach (detach : Detach) (e : Endpoint) : Endpoint × List Output :=
  let e := { e with remoteError := detach.error, isClosed := e.isClosed || detach.closed }
  match e.state with
  | .detached => (e, [])
  | .detachSent | .error => ({ e with state := .detached }, [])
  | _ =>
    ({ e with state := .detached }, [.detach { handle := e.handle, closed := detach.closed }])

/-- The fault of an operation that needs an attached link. -/
def notAttached (e : Endpoint) : Fault := .illegalState (.linkNotAttached e.name e.state)

end Endpoint

end Amqp.Link
