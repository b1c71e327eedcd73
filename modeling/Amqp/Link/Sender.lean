import Amqp.Link.Endpoint
import Amqp.Table

/-!
# Sending link ends

A sending end spends the credit that the receiver grants and keeps every unsettled delivery until
its outcome is known: the peer settles it, or the send timeout expires.  Each outcome can be taken
once.
-/

namespace Amqp.Link

/-- A delivery whose outcome is not known yet. -/
structure Pending where
  tag : Bytes
  sentAt : Nat

/-- The final state of a delivery.  A settled delivery has the state that the peer reported. -/
inductive Outcome where
  | settled (state : Option DeliveryState)
  | expired

/-- A sending link end. -/
structure Sender where
  endpoint : Endpoint
  sendTimeout : Option UInt64 := none
  nextTag : UInt64 := 0
  unsettled : Table UInt32 Pending := ∅
  outcomes : Table UInt32 Outcome := ∅

namespace Sender

/-- A detached sending end. -/
def create (name : String) (handle : UInt32) (source : Option Source) (target : Option Target)
    (settings : Settings.Link) : Except Fault Sender := do
  let endpoint ← Endpoint.create name handle .sender source target settings
  return { endpoint, sendTimeout := settings.sendTimeout }

/-- The transfer of a message, or none while the receiver grants no credit. -/
def draft (payload : Bytes) (settled : Bool) (s : Sender) :
    Except Fault (Option Transfer × Sender) := do
  let e := s.endpoint
  if e.state ≠ .attached then throw e.notAttached
  if let some limit := e.remoteMaxMessageSize then
    if 0 < limit ∧ limit.toNat < payload.length then
      throw (.invalidValue (.messageTooLong payload.length limit))
  if e.linkCredit = 0 then return (none, s)
  let transfer : Transfer :=
    { handle := e.handle, deliveryTag := some (Word.encode 8 s.nextTag.toNat),
      messageFormat := some 0, settled := some settled, payload }
  return (some transfer, { s with nextTag := s.nextTag + 1 })

/-- Books a transfer that the session has sent under a delivery id.  A transfer that was sent
settled has no outcome to wait for. -/
def book (deliveryId : UInt32) (transfer : Transfer) (now : Nat) (s : Sender) : Sender :=
  let e := s.endpoint
  let s :=
    { s with
      endpoint :=
        { e with
          linkCredit := if e.linkCredit = 0 then 0 else e.linkCredit - 1
          deliveryCount := e.deliveryCount + 1 } }
  if transfer.settled = some true then s
  else
    let pending := { tag := transfer.deliveryTag.getD [], sentAt := now }
    { s with unsettled := s.unsettled.insert deliveryId pending }

/-- Moves unsettled deliveries to the outcomes. -/
def conclude (outcome : Outcome) : List UInt32 → Sender → Sender
  | [], s => s
  | id :: ids, s =>
    conclude outcome ids
      { s with unsettled := s.unsettled.erase id, outcomes := s.outcomes.insert id outcome }

/-- Gives up the deliveries that have been unsettled for the send timeout. -/
def evaluate (now : Nat) (s : Sender) : Sender :=
  match s.sendTimeout with
  | none => s
  | some timeout =>
    let overdue := s.unsettled.filter fun _ pending => timeout.toNat ≤ now - pending.sentAt
    s.conclude .expired overdue.keys

/-- The outcome of a delivery, which is given away. -/
def collect (deliveryId : UInt32) (s : Sender) : Option Outcome × Sender :=
  (s.outcomes.get? deliveryId, { s with outcomes := s.outcomes.erase deliveryId })

/-- The credit left of a grant of `credit` deliveries beyond `receiverCount`, for a sender that
has counted `deliveryCount` deliveries.  Counts wrap around; a limit that has been passed leaves
none. -/
def remainingCredit (receiverCount credit deliveryCount : UInt32) : UInt32 :=
  let available := receiverCount + credit - deliveryCount
  if available < 0x80000000 then available else 0

/-- Takes the receiver's flow: new credit, a request to drain it, or a request to answer.  Nothing
waits to be sent at this end, so draining uses up all credit. -/
def onFlow (flow : Flow) (s : Sender) : Sender × List Output :=
  let e := s.endpoint
  let e :=
    match flow.linkCredit with
    | none => e
    | some credit =>
      let count := flow.deliveryCount.getD e.deliveryCount
      { e with linkCredit := remainingCredit count credit e.deliveryCount }
  if flow.drain && e.linkCredit != 0 then
    let e := { e with deliveryCount := e.deliveryCount + e.linkCredit, linkCredit := 0 }
    ({ s with endpoint := e }, [.flow { e.toFlow with drain := true }])
  else ({ s with endpoint := e }, if flow.echo then [.flow e.toFlow] else [])

/-- A sending end accepts no transfers. -/
def transferFault (transfer : Transfer) (s : Sender) : Fault :=
  .malformed (.transferToSender transfer.handle s.endpoint.name)

/-- Takes the receiver's disposition: the deliveries in its range are settled if it settles them or
tells their final state.  A receiver that has not settled yet gets a confirmation. -/
def onDisposition (d : Disposition) (s : Sender) : Sender × List Output :=
  let covered := s.unsettled.keys.filter d.covers
  let isOutcome := d.state.any DeliveryState.isOutcome
  if d.role = .receiver ∧ covered ≠ [] ∧ (d.settled ∨ isOutcome) then
    (s.conclude (.settled d.state) covered,
      if d.settled then []
      else
        [.disposition
          { role := .sender, first := d.first, last := d.last, settled := true,
            state := d.state }])
  else (s, [])

end Sender

end Amqp.Link
