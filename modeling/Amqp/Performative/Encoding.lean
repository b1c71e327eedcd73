import Amqp.Performative
import Amqp.Value.Encoding

/-!
# Encoding of performatives

Each performative has the fields of a composite (`toValue`); a frame body is that composite with
the payload of a transfer behind it.
-/

namespace Amqp

namespace Open

/-- The Open as a value. -/
def toValue (o : Open) : Value :=
  composite Descriptor.openFrame
    [.string o.containerId, .ofOption .string o.hostname, .ofOption .uint o.maxFrameSize,
      .ofOption .ushort o.channelMax, .ofOption .uint o.idleTimeout,
      .ofOption .symbols o.outgoingLocales, .ofOption .symbols o.incomingLocales,
      .ofOption .symbols o.offeredCapabilities, .ofOption .symbols o.desiredCapabilities,
      .ofOption .map o.properties]

end Open

namespace Begin

/-- The Begin as a value. -/
def toValue (b : Begin) : Value :=
  composite Descriptor.begin
    [.ofOption .ushort b.remoteChannel, .uint b.nextOutgoingId, .uint b.incomingWindow,
      .uint b.outgoingWindow, .uint b.handleMax, .ofOption .symbols b.offeredCapabilities,
      .ofOption .symbols b.desiredCapabilities, .ofOption .map b.properties]

end Begin

namespace Attach

/-- The Attach as a value. -/
def toValue (a : Attach) : Value :=
  composite Descriptor.attach
    [.string a.name, .uint a.handle, .bool a.role.isReceiver,
      .ofOption (fun m => .ubyte m.code) a.senderSettleMode,
      .ofOption (fun m => .ubyte m.code) a.receiverSettleMode,
      .ofOption Source.toValue a.source, .ofOption Target.toValue a.target,
      .ofOption .map a.unsettled, .ofFlag a.incompleteUnsettled,
      .ofOption .uint a.initialDeliveryCount, .ofOption .ulong a.maxMessageSize,
      .ofOption .symbols a.offeredCapabilities, .ofOption .symbols a.desiredCapabilities,
      .ofOption .map a.properties]

end Attach

namespace Flow

/-- The Flow as a value. -/
def toValue (f : Flow) : Value :=
  composite Descriptor.flow
    [.ofOption .uint f.nextIncomingId, .uint f.incomingWindow, .uint f.nextOutgoingId,
      .uint f.outgoingWindow, .ofOption .uint f.handle, .ofOption .uint f.deliveryCount,
      .ofOption .uint f.linkCredit, .ofOption .uint f.available, .ofFlag f.drain, .ofFlag f.echo,
      .ofOption .map f.properties]

end Flow

namespace Transfer

/-- The Transfer as a value, without its payload. -/
def toValue (t : Transfer) : Value :=
  composite Descriptor.transfer
    [.uint t.handle, .ofOption .uint t.deliveryId, .ofOption .binary t.deliveryTag,
      .ofOption .uint t.messageFormat, .ofOption .bool t.settled, .ofFlag t.more,
      .ofOption (fun m => .ubyte m.code) t.receiverSettleMode,
      .ofOption DeliveryState.toValue t.state, .ofFlag t.resume, .ofFlag t.aborted,
      .ofFlag t.batchable]

end Transfer

namespace Disposition

/-- The Disposition as a value. -/
def toValue (d : Disposition) : Value :=
  composite Descriptor.disposition
    [.bool d.role.isReceiver, .uint d.first, .ofOption .uint d.last, .ofFlag d.settled,
      .ofOption DeliveryState.toValue d.state, .ofFlag d.batchable]

end Disposition

namespace Detach

/-- The Detach as a value. -/
def toValue (d : Detach) : Value :=
  composite Descriptor.detach
    [.uint d.handle, .ofFlag d.closed, .ofOption ErrorInfo.toValue d.error]

end Detach

namespace Performative

/-- The performative as a value, without a payload. -/
def toValue : Performative → Value
  | openFrame v => v.toValue
  | begin v => v.toValue
  | attach v => v.toValue
  | flow v => v.toValue
  | transfer v => v.toValue
  | disposition v => v.toValue
  | detach v => v.toValue
  | endFrame v => composite Descriptor.endFrame [.ofOption ErrorInfo.toValue v.error]
  | close v => composite Descriptor.close [.ofOption ErrorInfo.toValue v.error]

/-- The body of the frame of a performative. -/
def encode (p : Performative) : Bytes := p.toValue.encode ++ p.payload

end Performative

end Amqp
