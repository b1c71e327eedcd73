import Amqp.Link.Endpoint

/-!
# Receiving link ends

A receiving end puts the transfers of a delivery together, queues the complete messages and grants
credit to the sender.  A message that arrives unsettled is accepted at once, or waits until it is
settled by the application.
-/

namespace Amqp.Link

/-- A message, or the part of it that has arrived. -/
structure Message where
  deliveryId : UInt32
  deliveryTag : Option Bytes
  settled : Bool
  payload : Bytes

/-- A receiving link end. -/
structure Receiver where
  endpoint : Endpoint
  prefetch : UInt32
  autoAccept : Bool
  inProgress : Option Message := none
  received : List Message := []
  unsettled : List UInt32 := []

namespace Receiver

/-- A detached receiving end. -/
def create (name : String) (handle : UInt32) (source : Option Source) (target : Option Target)
    (settings : Settings.Link) : Except Fault Receiver := do
  let endpoint ← Endpoint.create name handle .receiver source target settings
  return { endpoint, prefetch := settings.prefetch, autoAccept := settings.autoAccept }

/-- The oldest message in the queue, which is given away. -/
def pop (r : Receiver) : Option Message × Receiver :=
  (r.received.head?, { r with received := r.received.tail })

/-- Whether a delivery waits to be settled. -/
def hasUnsettled (deliveryId : UInt32) (r : Receiver) : Bool := r.unsettled.contains deliveryId

/-- Grants credit, in place of what is left of the last grant. -/
def grant (credit : UInt32) (r : Receiver) : Except Fault (Receiver × List Output) :=
  if r.endpoint.state ≠ .attached then .error r.endpoint.notAttached
  else
    let e := { r.endpoint with linkCredit := credit }
    .ok ({ r with endpoint := e }, [.flow e.toFlow])

/-- The disposition that settles one delivery. -/
def settlement (deliveryId : UInt32) (state : DeliveryState) : Output :=
  .disposition { role := .receiver, first := deliveryId, settled := true, state := some state }

/-- Settles a delivery that waits for it. -/
def settle (deliveryId : UInt32) (state : DeliveryState) (r : Receiver) :
    Except Fault (Receiver × List Output) :=
  if r.hasUnsettled deliveryId then
    .ok
      ({ r with unsettled := r.unsettled.filter (· ≠ deliveryId) }, [settlement deliveryId state])
  else .error (.invalidValue (.notUnsettled deliveryId r.endpoint.name))

/-- Grants the prefetch credit when no credit is left. -/
def refill (r : Receiver) : Receiver × List Output :=
  if r.prefetch ≠ 0 ∧ r.endpoint.linkCredit = 0 then
    let e := { r.endpoint with linkCredit := r.prefetch }
    ({ r with endpoint := e }, [.flow e.toFlow])
  else (r, [])

/-- Follows the session; the delivery in progress is lost when the session is over. -/
def followSession (state : Session.State) (r : Receiver) : Receiver × List Output :=
  let (e, outputs) := r.endpoint.followSession state
  let inProgress := if state = .discarding ∨ state = .unmapped then none else r.inProgress
  ({ r with endpoint := e, inProgress }, outputs)

/-- Takes the sender's attach, and grants the prefetch credit once the link is attached. -/
def onAttach (attach : Attach) (r : Receiver) : Receiver × List Output :=
  let e := r.endpoint
  let e :=
    if attach.role = .sender then
      { e with deliveryCount := attach.initialDeliveryCount.getD 0 }
    else e
  match e.onAttach attach with
  | (e, outputs, false) => ({ r with endpoint := e }, outputs)
  | (e, outputs, true) =>
    let (r, granted) := { r with endpoint := { e with linkCredit := 0 } }.refill
    (r, outputs ++ granted)

/-- Takes the sender's flow.  A delivery count ahead of ours means that the sender has used up
credit without sending. -/
def onFlow (flow : Flow) (r : Receiver) : Receiver × List Output :=
  let e := r.endpoint
  let e :=
    match flow.deliveryCount with
    | none => e
    | some count =>
      let advance := count - e.deliveryCount
      if 0 < advance ∧ advance < 0x80000000 then
        { e with
          linkCredit := if advance ≤ e.linkCredit then e.linkCredit - advance else 0
          deliveryCount := count }
      else e
  ({ r with endpoint := e }, if flow.echo then [.flow e.toFlow] else [])

/-- The delivery that a transfer belongs to: the one in progress, or else a new one, which uses up
one credit. -/
def delivery (t : Transfer) (r : Receiver) : Except Fault (Message × Receiver) :=
  match r.inProgress with
  | some message => .ok (message, { r with inProgress := none })
  | none =>
    match t.deliveryId with
    | none => .error (.malformed (.missingDeliveryId r.endpoint.name))
    | some deliveryId =>
      let e := r.endpoint
      let e :=
        { e with
          deliveryCount := e.deliveryCount + 1
          linkCredit := if e.linkCredit = 0 then 0 else e.linkCredit - 1 }
      .ok
        ({ deliveryId, deliveryTag := t.deliveryTag, settled := t.settled.getD false,
           payload := [] },
          { r with endpoint := e })

/-- Queues a complete message.  If it is not settled, it is accepted, or waits to be settled. -/
def queue (message : Message) (r : Receiver) : Receiver × List Output :=
  if message.settled then ({ r with received := r.received ++ [message] }, [])
  else if r.autoAccept then
    ({ r with received := r.received ++ [{ message with settled := true }] },
      [settlement message.deliveryId .accepted])
  else
    ({ r with
       received := r.received ++ [message]
       unsettled := r.unsettled.filter (· ≠ message.deliveryId) ++ [message.deliveryId] }, [])

/-- Whether a message of a given size is over the limit of this end, if it has one. -/
def exceedsLimit (size : Nat) (r : Receiver) : Option UInt64 :=
  r.endpoint.maxMessageSize.filter fun limit => 0 < limit && decide (limit.toNat < size)

/-- The error of a message over the limit. -/
def sizeExceeded (limit : UInt64) : ErrorInfo where
  condition := Condition.messageSizeExceeded
  description := some s!"message exceeds {limit.toNat} bytes"

/-- Takes a transfer.  It is dropped while the link detaches; a message over the size limit closes
the link; an aborted delivery leaves nothing. -/
def onTransfer (t : Transfer) (r : Receiver) : Except Fault (Receiver × List Output) := do
  if r.endpoint.state = .detachSent ∨ r.endpoint.state = .error then return (r, [])
  let (message, r) ← r.delivery t
  if t.aborted then return r.refill
  let payload := message.payload ++ t.payload
  if let some limit := r.exceedsLimit payload.length then
    let (e, outputs) := r.endpoint.detach true (some (sizeExceeded limit))
    return ({ r with endpoint := e }, outputs)
  let message := { message with settled := message.settled || t.settled == some true, payload }
  let (r, outputs) :=
    if t.more then ({ r with inProgress := some message }, []) else r.queue message
  let (r, granted) := r.refill
  return (r, outputs ++ granted)

/-- Takes the sender's disposition, which may settle deliveries that wait for it. -/
def onDisposition (d : Disposition) (r : Receiver) : Receiver :=
  if d.role = .sender ∧ d.settled then
    { r with unsettled := r.unsettled.filter fun id => !d.covers id }
  else r

/-- Takes the peer's detach; the delivery in progress is lost. -/
def onDetach (detach : Detach) (r : Receiver) : Receiver × List Output :=
  let (e, outputs) := r.endpoint.onDetach detach
  ({ r with endpoint := e, inProgress := none }, outputs)

end Receiver

end Amqp.Link
