import Amqp.Session.Outgoing

/-!
# Working with the links of a session

Links are created, attached and detached by name.  Messages are sent on sending links, which book
each delivery, and received on receiving links.
-/

namespace Amqp.Session

variable {κ : Type} [FrameCarrier κ]

open Acting

/-- Adds a sending link to a target.  Its name is made of a part that no other link has. -/
def addSender (unique target : String) (settings : Option Settings.Link) (s : Session) :
    Except Fault (String × Session) := do
  let handle ← s.freeHandle
  let name := "sender-link-" ++ unique
  let link ← Link.Sender.create name handle (some { address := some name })
    (some { address := some target }) (settings.getD s.linkSettings)
  return (name, s.register (.sender link))

/-- Adds a receiving link from a source.  Its name is made of a part that no other link has. -/
def addReceiver (unique source : String) (settings : Option Settings.Link) (s : Session) :
    Except Fault (String × Session) := do
  let handle ← s.freeHandle
  let name := "receiver-link-" ++ unique
  let link ← Link.Receiver.create name handle (some { address := some source })
    (some { address := some name }) (settings.getD s.linkSettings)
  return (name, s.register (.receiver link))

/-- Attaches a link, at once if the session is mapped and else when it will be. -/
def attach (name : String) : Acting κ Unit := do
  let s ← current
  let link ← Action.ofExcept (s.link name)
  if s.state = .mapped then
    let (link, outputs) := link.attach
    commit (s.withLink name link, outputs)
  else
    let link := link.withEndpoint { link.endpoint with isClosed := false }
    update fun s => s.withLink name link

/-- Detaches a link.  One that is detached is dropped. -/
def detach (name : String) (close : Bool) (error : Option ErrorInfo) : Acting κ Unit := do
  let s ← current
  let link ← Action.ofExcept (s.link name)
  if link.endpoint.state = .detached then update (remove name)
  else
    let (link, outputs) := link.detach close error
    commit (s.withLink name link, outputs)

/-- Sends a message on a sending link.  `now` is the time of sending. -/
def send (now : Nat) (name : String) (payload : Bytes) (settled : Bool) :
    Acting κ SendOutcome := do
  let s ← current
  if s.state ≠ .mapped then return .refused
  let sender ← Action.ofExcept (s.sender name)
  match ← Action.ofExcept (sender.draft payload settled) with
  | (none, _) => return .busy
  | (some transfer, sender) =>
    update fun s => s.withLink name (.sender sender)
    let outcome ← sendDelivery transfer
    if let .sent deliveryId := outcome then
      let sender := sender.book deliveryId transfer now
      update fun s => s.withLink name (.sender sender)
    return outcome

/-- Grants credit on a receiving link. -/
def grantCredit (name : String) (credit : UInt32) : Acting κ Unit := do
  let s ← current
  let receiver ← Action.ofExcept (s.receiver name)
  let (receiver, outputs) ← Action.ofExcept (receiver.grant credit)
  commit (s.withLink name (.receiver receiver), outputs)

/-- Settles a delivery received on a link. -/
def settle (name : String) (deliveryId : UInt32) (state : DeliveryState) : Acting κ Unit := do
  let s ← current
  let receiver ← Action.ofExcept (s.receiver name)
  let (receiver, outputs) ← Action.ofExcept (receiver.settle deliveryId state)
  commit (s.withLink name (.receiver receiver), outputs)

/-- The oldest message received on a link, which is given away. -/
def receive (name : String) (s : Session) : Except Fault (Option Link.Message × Session) := do
  let (message, receiver) := (← s.receiver name).pop
  return (message, s.withLink name (.receiver receiver))

/-- The outcome of a delivery sent on a link, which is given away. -/
def collectOutcome (name : String) (deliveryId : UInt32) (s : Session) :
    Except Fault (Option Link.Outcome × Session) := do
  let (outcome, sender) := (← s.sender name).collect deliveryId
  return (outcome, s.withLink name (.sender sender))

end Amqp.Session
