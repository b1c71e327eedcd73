import Amqp.Composite.Descriptor
import Amqp.Session.Outgoing

/-!
# Frames that a session takes

`Session.dispatch` hands a frame of the peer to its handler.  A frame on a handle that is not
attached, and an attach on a handle in use, end the session with an error.
-/

namespace Amqp.Session

variable {κ : Type} [FrameCarrier κ]

open Acting

/-! ## Begin and End -/

/-- What a session learns from the peer's Begin. -/
def learnBegin (begin : Begin) (s : Session) : Session :=
  { s with
    handleMax := min s.handleMax begin.handleMax
    nextIncomingId := some begin.nextOutgoingId
    remoteIncomingWindow := begin.incomingWindow.toNat
    remoteOutgoingWindow := begin.outgoingWindow.toNat }

/-- Takes the peer's Begin, which completes the handshake or is answered. -/
def onBegin (remoteChannel : UInt16) (begin : Begin) : Acting κ Unit := do
  update (learnBegin begin)
  match (← current).state with
  | .beginSent =>
    update fun s => { s with remoteChannel := some remoteChannel }
    transition .mapped
  | .unmapped =>
    update fun s => { s with remoteChannel := some remoteChannel }
    transition .beginReceived
    sendBegin
    transition .mapped
  | _ => pure ()

/-- Takes the peer's End, answering it if no End has been sent.  The links are released. -/
def onEnd : Acting κ Unit := do
  if !(← current).state.isEnding then
    transition .endReceived
    sendEnd none
  transition .unmapped
  update dropLinks

/-- Ends the session with an error and fails. -/
def abort (error : ErrorInfo) (f : Fault) : Acting κ Unit := do
  sendEnd (some error)
  transition .discarding
  Action.raise f

/-- Ends the session because of a frame on a handle that is not attached. -/
def rejectUnattached (handle : UInt32) : Acting κ Unit :=
  abort
    { condition := Condition.unattachedHandle
      description := some s!"handle {handle.toNat} is not attached" }
    (.unattachedHandle handle)

/-- Ends the session because of an attach on a handle in use. -/
def rejectHandleInUse (handle : UInt32) (holder : String) : Acting κ Unit :=
  abort
    { condition := Condition.handleInUse
      description := some s!"handle {handle.toNat} is in use by link '{holder}'" }
    (.handleInUse handle)

/-! ## Links -/

/-- Attaches a link that the session knows.  The link moves to the peer's new handle. -/
def attachKnown (attach : Attach) (link : Link) (s : Session) : Session × List Link.Output :=
  let (changed, outputs) := link.onAttach attach
  let inputHandles :=
    match link.endpoint.remoteHandle with
    | some stale => if stale = attach.handle then s.inputHandles else s.inputHandles.erase stale
    | none => s.inputHandles
  ({ s.withLink attach.name changed with
     inputHandles := inputHandles.insert attach.handle attach.name }, outputs)

/-- Adds the local end of a link that the peer attaches. -/
def attachNew (attach : Attach) (s : Session) : Except Fault (Session × List Link.Output) := do
  let handle ← s.freeHandle
  let link ← Link.ofAttach attach handle s.linkSettings
  let (link, outputs) := link.onAttach attach
  return (s.register link, outputs)

/-- Takes the peer's attach. -/
def onAttach (attach : Attach) : Acting κ Unit := do
  let s ← current
  if let some holder := s.inputHandles.get? attach.handle then
    if holder ≠ attach.name then
      return ← rejectHandleInUse attach.handle holder
  match s.links.get? attach.name with
  | some link => commit (s.attachKnown attach link)
  | none => commit (← Action.ofExcept (s.attachNew attach))

/-- The difference of two ids that count modulo `2 ^ 32`, nearest to zero. -/
def idDifference (a b : UInt32) : Int := (a - b).toInt32.toInt

/-- What a session learns from the peer's flow.  A peer that has not seen a transfer id yet has room
for its whole window. -/
def learnFlow (flow : Flow) (s : Session) : Session :=
  let expected := flow.nextIncomingId.getD s.nextOutgoingId
  { s with
    nextIncomingId := some flow.nextOutgoingId
    remoteIncomingWindow := idDifference expected s.nextOutgoingId + flow.incomingWindow.toNat
    remoteOutgoingWindow := flow.outgoingWindow.toNat }

/-- Hands a flow to the links that are not closed, by ascending local handle, if the peer's window
has room. -/
def spreadFlow (flow : Flow) (s : Session) : Session × List Link.Output :=
  if 0 < s.remoteIncomingWindow then
    let react := fun (link : Link) =>
      if link.endpoint.isClosed then (link, []) else link.onFlow flow
    let (links, outputs) := visit react (s.outputHandles.ascending.map Prod.snd) s.links
    ({ s with links }, outputs)
  else (s, [])

/-- Takes the peer's flow. -/
def onFlow (flow : Flow) : Acting κ Unit := do
  update (learnFlow flow)
  let s ← current
  match flow.handle with
  | none => commit (s.spreadFlow flow)
  | some handle =>
    match s.inputHandles.get? handle with
    | none => rejectUnattached handle
    | some name =>
      let (link, outputs) := (← Action.ofExcept (s.link name)).onFlow flow
      commit (s.withLink name link, outputs)

/-- Counts a transfer that has come in. -/
def countIncoming (s : Session) : Session :=
  { s with
    nextIncomingId := some (s.nextIncomingId.getD 0 + 1)
    remoteOutgoingWindow := s.remoteOutgoingWindow - 1
    incomingWindow := if s.incomingWindow = 0 then 0 else s.incomingWindow - 1 }

/-- Opens the incoming window again when it is used up. -/
def replenish : Acting κ Unit := do
  if (← current).incomingWindow = 0 then
    update fun s => { s with incomingWindow := s.targetIncomingWindow }
    sendFlow none

/-- Takes a transfer. -/
def onTransfer (transfer : Transfer) : Acting κ Unit := do
  update countIncoming
  let s ← current
  match s.inputHandles.get? transfer.handle with
  | none => rejectUnattached transfer.handle
  | some name =>
    let link ← Action.ofExcept (s.link name)
    let (link, outputs) ← Action.ofExcept (link.onTransfer transfer)
    commit (s.withLink name link, outputs)
    replenish

/-- Takes the peer's disposition, which every attached link may concern. -/
def onDisposition (disposition : Disposition) : Acting κ Unit := do
  let s ← current
  let react := fun (link : Link) => link.onDisposition disposition
  let (links, outputs) := visit react s.inputHandles.values s.links
  commit ({ s with links }, outputs)

/-- Takes the peer's detach; a link that is detached now is dropped. -/
def onDetach (detach : Detach) : Acting κ Unit := do
  let s ← current
  match s.inputHandles.get? detach.handle with
  | none => rejectUnattached detach.handle
  | some name =>
    let (link, outputs) := (← Action.ofExcept (s.link name)).onDetach detach
    commit (s.withLink name link, outputs)
    if link.endpoint.state = .detached then update (remove name)

/-! ## Dispatch -/

/-- Takes a frame that has arrived on one of the peer's channels. -/
def dispatch (remoteChannel : UInt16) : Performative → Acting κ Unit
  | .begin v => onBegin remoteChannel v
  | .endFrame _ => onEnd
  | .attach v => onAttach v
  | .flow v => onFlow v
  | .transfer v => onTransfer v
  | .disposition v => onDisposition v
  | .detach v => onDetach v
  | p => Action.raise (.malformed (.notSessionFrame p.name))

/-- A session that the peer begins on one of its channels. -/
def ofBegin (name : String) (channel remoteChannel : UInt16) (begin : Begin)
    (settings : Settings.Session) (linkSettings : Settings.Link) : Action κ Session :=
  fun carrier =>
    match onBegin remoteChannel begin (create name channel settings linkSettings, carrier) with
    | .ok _ (s, carrier) => .ok s carrier
    | .error halt (_, carrier) => .error halt carrier

end Amqp.Session
