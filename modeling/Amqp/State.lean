/-!
# States

Where connections, sessions and links stand in the handshakes that open and end them.
-/

namespace Amqp.Connection

/-- Where a connection stands in the header, open and close handshakes. -/
inductive State where
  | start
  | headersExchanged
  | openSent
  | opened
  | closeReceived
  | closeSent
  | discarding
  | ended
deriving DecidableEq, Repr

namespace State

/-- The name of a connection state. -/
def name : State → String
  | start => "Start"
  | headersExchanged => "HdrExch"
  | openSent => "OpenSent"
  | opened => "Opened"
  | closeReceived => "CloseRcvd"
  | closeSent => "CloseSent"
  | discarding => "Discarding"
  | ended => "End"

/-- Whether sessions may put frames on the wire. -/
def carriesSessions : State → Bool
  | headersExchanged | openSent | opened | closeReceived => true
  | _ => false

end State

end Amqp.Connection

namespace Amqp.Session

/-- Where a session stands in the begin and end handshakes. -/
inductive State where
  | unmapped
  | beginSent
  | beginReceived
  | mapped
  | endSent
  | endReceived
  | discarding
deriving DecidableEq, Repr

namespace State

/-- The name of a session state. -/
def name : State → String
  | unmapped => "Unmapped"
  | beginSent => "BeginSent"
  | beginReceived => "BeginRcvd"
  | mapped => "Mapped"
  | endSent => "EndSent"
  | endReceived => "EndRcvd"
  | discarding => "Discarding"

/-- Whether an End has been sent or received. -/
def isEnding : State → Bool
  | endSent | endReceived | discarding => true
  | _ => false

end State

end Amqp.Session

namespace Amqp.Link

/-- Where a link end stands in the attach and detach handshakes.  `error` is the state after a
detach that carried an error, until the peer has answered it. -/
inductive State where
  | detached
  | attachSent
  | attachReceived
  | attached
  | detachSent
  | detachReceived
  | error
deriving DecidableEq, Repr

/-- The name of a link state. -/
def State.name : State → String
  | detached => "Detached"
  | attachSent => "AttachSent"
  | attachReceived => "AttachRcvd"
  | attached => "Attached"
  | detachSent => "DetachSent"
  | detachReceived => "DetachRcvd"
  | error => "Error"

end Amqp.Link
