import Amqp.Action
import Amqp.Performative.Splitting
import Amqp.Session.Basic

/-!
# Frames that a session sends

The actions of a session change it together with the carrier that takes its frames.  If the carrier
refuses a frame, what was changed and sent before stays as it is.  An action that opens or ends
something has the patience to wait for the peer without limit, for a limited time, or not at all.
-/

namespace Amqp

/-! ## Carriers -/

/-- A carrier of frames: what a session needs from the connection that it belongs to. -/
class FrameCarrier (κ : Type) where
  state : κ → Connection.State
  maxFrameSize : κ → UInt32
  carry : UInt16 → Performative → Action κ Unit

/-! ## Patience -/

/-- How long an operation waits for the peer's answer. -/
inductive Patience where
  | zero
  | unlimited
  | limited (milliseconds : Nat)
deriving DecidableEq, Repr

namespace Patience

/-- Whether the operation waits at all. -/
def waits : Patience → Bool
  | zero => false
  | _ => true

/-- The instant at which a wait that begins at `start` runs out, if it does. -/
def deadline? (start : Nat) : Patience → Option Nat
  | limited milliseconds => some (start + milliseconds)
  | _ => none

end Patience

/-- How a wait ended. -/
inductive WaitResult where
  | reached
  | timedOut
  | notWaited
deriving DecidableEq, Repr

namespace Session

variable {κ : Type}

/-! ## Actions -/

/-- An action of a session that sends its frames to a carrier. -/
abbrev Acting (κ α : Type) := Action (Session × κ) α

namespace Acting

/-- The session as it is. -/
def current : Acting κ Session := fun s => .ok s.1 s

/-- Changes the session. -/
def update (f : Session → Session) : Acting κ Unit := fun (s, carrier) => .ok () (f s, carrier)

theorem current_bind {α : Type} (f : Session → Acting κ α) (s : Session) (carrier : κ) :
    (current >>= f) (s, carrier) = f s (s, carrier) :=
  Action.bind_of_ok rfl

theorem update_bind {α : Type} (change : Session → Session) (f : Unit → Acting κ α) (s : Session)
    (carrier : κ) : (update change >>= f) (s, carrier) = f () (change s, carrier) :=
  Action.bind_of_ok rfl

variable [FrameCarrier κ]

/-- Sends a frame on the session's channel. -/
def emit (p : Performative) : Acting κ Unit := fun (s, carrier) =>
  match FrameCarrier.carry s.channel p carrier with
  | .ok _ carrier => .ok () (s, carrier)
  | .error halt carrier => .error halt (s, carrier)

end Acting

variable [FrameCarrier κ]

open Acting

/-- A flow with the session's windows, on top of the fields of a link's flow. -/
def toFlow (s : Session) (flow : Flow) : Flow :=
  { flow with
    nextIncomingId := s.nextIncomingId
    incomingWindow := s.incomingWindow
    nextOutgoingId := s.nextOutgoingId
    outgoingWindow := s.outgoingWindow }

/-- Sends a flow, possibly for a link. -/
def sendFlow (flow : Option Flow) : Acting κ Unit := do
  emit (.flow ((← current).toFlow (flow.getD {})))

/-- Sends an output of a link. -/
def sendOutput : Link.Output → Acting κ Unit
  | .attach v => emit (.attach v)
  | .flow v => sendFlow (some v)
  | .disposition v => emit (.disposition v)
  | .detach v => emit (.detach v)

/-- Sends the outputs of links in order. -/
def sendOutputs : List Link.Output → Acting κ Unit
  | [] => pure ()
  | output :: outputs => do
    sendOutput output
    sendOutputs outputs

/-- Replaces the session by a changed one and sends the outputs that came with the change. -/
def commit (change : Session × List Link.Output) : Acting κ Unit := do
  update fun _ => change.1
  sendOutputs change.2

/-- Enters a state. -/
def transition (state : State) : Acting κ Unit := do
  commit ((← current).enter state)

/-! ## Beginning and ending -/

/-- The Begin of the session.  In answer to the peer's Begin it names the peer's channel and offers
capabilities; at the start it desires some. -/
def toBegin (s : Session) : Begin where
  remoteChannel := if s.state = .beginReceived then s.remoteChannel else none
  nextOutgoingId := s.nextOutgoingId
  incomingWindow := s.incomingWindow
  outgoingWindow := s.outgoingWindow
  handleMax := s.handleMax
  offeredCapabilities := if s.state = .beginReceived then s.offeredCapabilities else none
  desiredCapabilities := if s.state = .unmapped then s.desiredCapabilities else none
  properties := s.properties

/-- Sends the Begin of the session. -/
def sendBegin : Acting κ Unit := do
  emit (.begin (← current).toBegin)

/-- Sends an End. -/
def sendEnd (error : Option ErrorInfo) : Acting κ Unit :=
  emit (.endFrame { error })

/-- Begins the session.  Who does not wait for the answer opens in a pipeline, which must be
allowed. -/
def begin (wait : Patience) : Acting κ Unit := do
  let s ← current
  if !wait.waits && !s.allowPipelinedOpen then
    Action.raise (.policyViolation .pipelinedOpen)
  if s.state ≠ .unmapped then
    Action.raise (.illegalState (.sessionCannotBegin s.name s.state))
  sendBegin
  transition .beginSent

/-- Ends the session, unless it is over.  With an error it is discarded at once; otherwise it waits
for the peer's End. -/
def finish (error : Option ErrorInfo) : Acting κ Unit := do
  let s ← current
  if s.state ≠ .unmapped ∧ s.state ≠ .discarding then
    sendEnd error
    transition (if error.isSome then .discarding else .endSent)

/-! ## Transfers -/

/-- What became of an outgoing delivery.  A busy session or link has no room for it now; a session
that is not mapped refuses it. -/
inductive SendOutcome where
  | sent (deliveryId : UInt32)
  | busy
  | refused
deriving DecidableEq, Repr

/-- Counts a transfer that has been sent. -/
def countOutgoing (s : Session) : Session :=
  { s with
    nextOutgoingId := s.nextOutgoingId + 1
    remoteIncomingWindow := s.remoteIncomingWindow - 1
    outgoingWindow := if s.outgoingWindow = 0 then 0 else s.outgoingWindow - 1 }

/-- Sends transfers one after another, counting each. -/
def sendTransfers : List Transfer → Acting κ Unit
  | [] => pure ()
  | t :: rest => do
    emit (.transfer t)
    update countOutgoing
    sendTransfers rest

/-- The transfers of a delivery with the delivery id in the first one. -/
def stamp (deliveryId : UInt32) : List Transfer → List Transfer
  | [] => []
  | t :: rest => { t with deliveryId := some deliveryId } :: rest

/-- Sends a delivery if the session is mapped and the peer's window has room for all its frames. -/
def sendDelivery (transfer : Transfer) : Acting κ SendOutcome := do
  let (s, carrier) ← get
  if s.state ≠ .mapped then return .refused
  if s.remoteIncomingWindow ≤ 0 then return .busy
  let transfers ← Action.ofExcept (transfer.split (FrameCarrier.maxFrameSize carrier))
  if s.remoteIncomingWindow < transfers.length then return .busy
  sendTransfers (stamp s.nextOutgoingId transfers)
  return .sent s.nextOutgoingId

end Session

end Amqp
