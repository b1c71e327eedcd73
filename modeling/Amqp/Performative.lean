import Amqp.Composite.DeliveryState
import Amqp.Composite.Terminus
import Amqp.Link.Mode

/-!
# Performatives

The nine kinds of frame body: Open and Close for connections, Begin and End for sessions, Attach and
Detach for links, Flow for windows and credit, Transfer for messages and Disposition for their fate.
Optional fields default to absent, numbers to zero and flags to off.
-/

namespace Amqp

/-- Opens a connection.  The idle timeout is in milliseconds. -/
structure Open where
  containerId : String := ""
  hostname : Option String := none
  maxFrameSize : Option UInt32 := none
  channelMax : Option UInt16 := none
  idleTimeout : Option UInt32 := none
  outgoingLocales : Option (List String) := none
  incomingLocales : Option (List String) := none
  offeredCapabilities : Option (List String) := none
  desiredCapabilities : Option (List String) := none
  properties : Option Entries := none
deriving Inhabited

/-- The greatest handle bound a session can announce. -/
def maxHandleBound : UInt32 := 4294967295

/-- Begins a session. -/
structure Begin where
  remoteChannel : Option UInt16 := none
  nextOutgoingId : UInt32 := 0
  incomingWindow : UInt32 := 0
  outgoingWindow : UInt32 := 0
  handleMax : UInt32 := maxHandleBound
  offeredCapabilities : Option (List String) := none
  desiredCapabilities : Option (List String) := none
  properties : Option Entries := none
deriving Inhabited

/-- Attaches a link to a session. -/
structure Attach where
  name : String
  handle : UInt32 := 0
  role : Role := .sender
  senderSettleMode : Option SenderSettleMode := none
  receiverSettleMode : Option ReceiverSettleMode := none
  source : Option Source := none
  target : Option Target := none
  unsettled : Option Entries := none
  incompleteUnsettled : Bool := false
  initialDeliveryCount : Option UInt32 := none
  maxMessageSize : Option UInt64 := none
  offeredCapabilities : Option (List String) := none
  desiredCapabilities : Option (List String) := none
  properties : Option Entries := none
deriving Inhabited

/-- Updates the windows of a session, and the credit of one link when it names a handle. -/
structure Flow where
  nextIncomingId : Option UInt32 := none
  incomingWindow : UInt32 := 0
  nextOutgoingId : UInt32 := 0
  outgoingWindow : UInt32 := 0
  handle : Option UInt32 := none
  deliveryCount : Option UInt32 := none
  linkCredit : Option UInt32 := none
  available : Option UInt32 := none
  drain : Bool := false
  echo : Bool := false
  properties : Option Entries := none
deriving Inhabited

/-- Carries a message or a part of one; the payload follows the performative in the frame. -/
structure Transfer where
  handle : UInt32 := 0
  deliveryId : Option UInt32 := none
  deliveryTag : Option Bytes := none
  messageFormat : Option UInt32 := none
  settled : Option Bool := none
  more : Bool := false
  receiverSettleMode : Option ReceiverSettleMode := none
  state : Option DeliveryState := none
  resume : Bool := false
  aborted : Bool := false
  batchable : Bool := false
  payload : Bytes := []
deriving Inhabited

/-- Tells the state of the deliveries from `first` to `last`. -/
structure Disposition where
  role : Role := .sender
  first : UInt32 := 0
  last : Option UInt32 := none
  settled : Bool := false
  state : Option DeliveryState := none
  batchable : Bool := false
deriving Inhabited

/-- Whether a delivery lies in the range of a disposition; delivery ids wrap around. -/
def Disposition.covers (d : Disposition) (deliveryId : UInt32) : Bool :=
  deliveryId - d.first ≤ d.last.getD d.first - d.first

/-- Detaches a link. -/
structure Detach where
  handle : UInt32 := 0
  closed : Bool := false
  error : Option ErrorInfo := none
deriving Inhabited

/-- Ends a session. -/
structure End where
  error : Option ErrorInfo := none
deriving Inhabited

/-- Closes a connection. -/
structure Close where
  error : Option ErrorInfo := none
deriving Inhabited

/-- The body of a frame. -/
inductive Performative where
  | openFrame (v : Open)
  | begin (v : Begin)
  | attach (v : Attach)
  | flow (v : Flow)
  | transfer (v : Transfer)
  | disposition (v : Disposition)
  | detach (v : Detach)
  | endFrame (v : End)
  | close (v : Close)

namespace Performative

/-- The name of the kind of a performative. -/
def name : Performative → String
  | openFrame _ => "open"
  | begin _ => "begin"
  | attach _ => "attach"
  | flow _ => "flow"
  | transfer _ => "transfer"
  | disposition _ => "disposition"
  | detach _ => "detach"
  | endFrame _ => "end"
  | close _ => "close"

/-- The message octets behind a performative: none but those of a transfer. -/
def payload : Performative → Bytes
  | transfer t => t.payload
  | _ => []

end Performative

end Amqp
