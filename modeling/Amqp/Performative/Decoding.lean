import Amqp.Performative
import Amqp.Value.Decoding

/-!
# Decoding of performatives

`Performative.decode` reads a frame body.  The number that describes the body selects the kind of
performative and its fields.  Octets behind the performative are the payload of a transfer, and a
fault behind any other kind.
-/

namespace Amqp

/-- Reads a field that holds a mode by its number. -/
def Fields.mode {α : Type} (field : String) (ofCode : UInt8 → Except Fault α) :
    Fields (Option α) := do
  match ← Fields.optional field Fields.ubyte with
  | none => return none
  | some code =>
    match ofCode code with
    | .ok mode => return some mode
    | .error f => Fields.fail f

/-- The fields of an Open. -/
def Open.fields : Fields Open := do
  let containerId ← Fields.required "container_id" Fields.text
  let hostname ← Fields.optional "hostname" Fields.text
  let maxFrameSize ← Fields.optional "max_frame_size" Fields.uint
  let channelMax ← Fields.optional "channel_max" Fields.ushort
  let idleTimeout ← Fields.optional "idle_timeout" Fields.uint
  let outgoingLocales ← Fields.optional "outgoing_locales" Fields.symbols
  let incomingLocales ← Fields.optional "incoming_locales" Fields.symbols
  let offeredCapabilities ← Fields.optional "offered_capabilities" Fields.symbols
  let desiredCapabilities ← Fields.optional "desired_capabilities" Fields.symbols
  let properties ← Fields.optional "properties" Fields.map
  return { containerId, hostname, maxFrameSize, channelMax, idleTimeout, outgoingLocales,
           incomingLocales, offeredCapabilities, desiredCapabilities, properties }

/-- The fields of a Begin. -/
def Begin.fields : Fields Begin := do
  let remoteChannel ← Fields.optional "remote_channel" Fields.ushort
  let nextOutgoingId ← Fields.required "next_outgoing_id" Fields.uint
  let incomingWindow ← Fields.required "incoming_window" Fields.uint
  let outgoingWindow ← Fields.required "outgoing_window" Fields.uint
  let handleMax ← Fields.optional "handle_max" Fields.uint
  let offeredCapabilities ← Fields.optional "offered_capabilities" Fields.symbols
  let desiredCapabilities ← Fields.optional "desired_capabilities" Fields.symbols
  let properties ← Fields.optional "properties" Fields.map
  return { remoteChannel, nextOutgoingId, incomingWindow, outgoingWindow,
           handleMax := handleMax.getD maxHandleBound, offeredCapabilities,
           desiredCapabilities, properties }

/-- The fields of an Attach. -/
def Attach.fields : Fields Attach := do
  let name ← Fields.required "name" Fields.text
  let handle ← Fields.required "handle" Fields.uint
  let isReceiver ← Fields.flag "role"
  let senderSettleMode ← Fields.mode "snd_settle_mode" SenderSettleMode.ofCode
  let receiverSettleMode ← Fields.mode "rcv_settle_mode" ReceiverSettleMode.ofCode
  let source ← Fields.nested Source.ofValue
  let target ← Fields.nested Target.ofValue
  let unsettled ← Fields.optional "unsettled" Fields.map
  let incompleteUnsettled ← Fields.flag "incomplete_unsettled"
  let initialDeliveryCount ← Fields.optional "initial_delivery_count" Fields.uint
  let maxMessageSize ← Fields.optional "max_message_size" Fields.ulong
  let offeredCapabilities ← Fields.optional "offered_capabilities" Fields.symbols
  let desiredCapabilities ← Fields.optional "desired_capabilities" Fields.symbols
  let properties ← Fields.optional "properties" Fields.map
  return { name, handle, role := .ofFlag isReceiver, senderSettleMode, receiverSettleMode,
           source, target, unsettled, incompleteUnsettled, initialDeliveryCount,
           maxMessageSize, offeredCapabilities, desiredCapabilities, properties }

/-- The fields of a Flow. -/
def Flow.fields : Fields Flow := do
  let nextIncomingId ← Fields.optional "next_incoming_id" Fields.uint
  let incomingWindow ← Fields.required "incoming_window" Fields.uint
  let nextOutgoingId ← Fields.required "next_outgoing_id" Fields.uint
  let outgoingWindow ← Fields.required "outgoing_window" Fields.uint
  let handle ← Fields.optional "handle" Fields.uint
  let deliveryCount ← Fields.optional "delivery_count" Fields.uint
  let linkCredit ← Fields.optional "link_credit" Fields.uint
  let available ← Fields.optional "available" Fields.uint
  let drain ← Fields.flag "drain"
  let echo ← Fields.flag "echo"
  let properties ← Fields.optional "properties" Fields.map
  return { nextIncomingId, incomingWindow, nextOutgoingId, outgoingWindow, handle,
           deliveryCount, linkCredit, available, drain, echo, properties }

/-- The fields of a Transfer with a given payload. -/
def Transfer.fields (payload : Bytes) : Fields Transfer := do
  let handle ← Fields.required "handle" Fields.uint
  let deliveryId ← Fields.optional "delivery_id" Fields.uint
  let deliveryTag ← Fields.optional "delivery_tag" Fields.binary
  let messageFormat ← Fields.optional "message_format" Fields.uint
  let settled ← Fields.optional "settled" Fields.bool
  let more ← Fields.flag "more"
  let receiverSettleMode ← Fields.mode "rcv_settle_mode" ReceiverSettleMode.ofCode
  let state ← Fields.nested DeliveryState.ofValue
  let resume ← Fields.flag "resume"
  let aborted ← Fields.flag "aborted"
  let batchable ← Fields.flag "batchable"
  return { handle, deliveryId, deliveryTag, messageFormat, settled, more, receiverSettleMode,
           state, resume, aborted, batchable, payload }

/-- The fields of a Disposition. -/
def Disposition.fields : Fields Disposition := do
  let isReceiver ← Fields.flag "role"
  let first ← Fields.required "first" Fields.uint
  let last ← Fields.optional "last" Fields.uint
  let settled ← Fields.flag "settled"
  let state ← Fields.nested DeliveryState.ofValue
  let batchable ← Fields.flag "batchable"
  return { role := .ofFlag isReceiver, first, last, settled, state, batchable }

/-- The fields of a Detach. -/
def Detach.fields : Fields Detach := do
  let handle ← Fields.required "handle" Fields.uint
  let closed ← Fields.flag "closed"
  let error ← Fields.nested ErrorInfo.ofValue
  return { handle, closed, error }

/-- The fields of an End. -/
def End.fields : Fields End := do
  return { error := ← Fields.nested ErrorInfo.ofValue }

/-- The fields of a Close. -/
def Close.fields : Fields Close := do
  return { error := ← Fields.nested ErrorInfo.ofValue }

namespace Performative

/-- The performative in a described value, with a given payload. -/
def ofValue (code : UInt64) (v : Value) (payload : Bytes) : Except Fault Performative :=
  if code = Descriptor.openFrame then openFrame <$> readComposite "open" code Open.fields v
  else if code = Descriptor.begin then begin <$> readComposite "begin" code Begin.fields v
  else if code = Descriptor.attach then attach <$> readComposite "attach" code Attach.fields v
  else if code = Descriptor.flow then flow <$> readComposite "flow" code Flow.fields v
  else if code = Descriptor.transfer then
    transfer <$> readComposite "transfer" code (Transfer.fields payload) v
  else if code = Descriptor.disposition then
    disposition <$> readComposite "disposition" code Disposition.fields v
  else if code = Descriptor.detach then detach <$> readComposite "detach" code Detach.fields v
  else if code = Descriptor.endFrame then endFrame <$> readComposite "end" code End.fields v
  else if code = Descriptor.close then close <$> readComposite "close" code Close.fields v
  else throw (.malformed (.unknownPerformative code))

/-- Whether the octets behind a performative belong to it. -/
def takesPayload : Performative → Bool
  | transfer _ => true
  | _ => false

/-- The performative in a frame body. -/
def decode (body : Bytes) : Except Fault Performative := do
  let (v, rest) ← (Value.decode body).mapError .malformed
  match v.descriptorCode? with
  | none => throw (.malformed .undescribedPerformative)
  | some code =>
    let p ← ofValue code v rest
    if p.takesPayload || rest.isEmpty then return p
    else throw (.malformed (.trailingBytes rest.length p.name))

end Performative

end Amqp
