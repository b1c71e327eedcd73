import Amqp.Link

/-!
# Sessions

A session holds its links by name and, for every local and every peer handle in use, the name of the
link behind it.  It counts transfers and tracks the windows of both ends.  `State` changes are
published to watchers; `publications` counts them.
-/

namespace Amqp

/-- A session on one channel of a connection.  The windows of the peer may be overdrawn. -/
structure Session where
  name : String
  channel : UInt16
  remoteChannel : Option UInt16 := none
  state : Session.State := .unmapped
  published : Session.State := .unmapped
  publications : Nat := 0
  nextOutgoingId : UInt32
  nextIncomingId : Option UInt32 := none
  incomingWindow : UInt32
  outgoingWindow : UInt32
  targetIncomingWindow : UInt32
  remoteIncomingWindow : Int := 0
  remoteOutgoingWindow : Int := 0
  handleMax : UInt32
  offeredCapabilities : Option (List String) := none
  desiredCapabilities : Option (List String) := none
  properties : Option Entries := none
  allowPipelinedOpen : Bool
  linkSettings : Settings.Link
  links : Table String Link := ∅
  outputHandles : Table UInt32 String := ∅
  inputHandles : Table UInt32 String := ∅

namespace Session

/-- A session that has not begun. -/
def create (name : String) (channel : UInt16) (settings : Settings.Session)
    (linkSettings : Settings.Link) : Session where
  name := name
  channel := channel
  nextOutgoingId := settings.nextOutgoingId
  incomingWindow := settings.incomingWindow
  outgoingWindow := settings.outgoingWindow
  targetIncomingWindow := settings.incomingWindow
  handleMax := settings.handleMax
  offeredCapabilities := settings.offeredCapabilities
  desiredCapabilities := settings.desiredCapabilities
  allowPipelinedOpen := settings.allowPipelinedOpen
  linkSettings := linkSettings

/-! ## Links and handles -/

/-- The link with a given name. -/
def link (name : String) (s : Session) : Except Fault Link :=
  match s.links.get? name with
  | some link => .ok link
  | none => .error (.unknownLink name)

/-- The sending link with a given name. -/
def sender (name : String) (s : Session) : Except Fault Link.Sender := do
  match ← s.link name with
  | .sender v => return v
  | .receiver _ => throw (.invalidValue (.notSender name))

/-- The receiving link with a given name. -/
def receiver (name : String) (s : Session) : Except Fault Link.Receiver := do
  match ← s.link name with
  | .sender _ => throw (.invalidValue (.notReceiver name))
  | .receiver v => return v

/-- The session with the link of a given name replaced. -/
def withLink (name : String) (link : Link) (s : Session) : Session :=
  { s with links := s.links.insert name link }

/-- The least local handle that is free.  Handles begin with 1 and stay below the bound. -/
def freeHandle (s : Session) : Except Fault UInt32 :=
  let used := s.outputHandles.keys.map UInt32.toNat
  let handle := firstUnused used 1
  if s.handleMax.toNat ≤ used.length ∨ s.handleMax.toNat ≤ handle then
    .error (.handlesExhausted s.handleMax)
  else .ok (UInt32.ofNat handle)

/-- Adds a link under its name and its handles. -/
def register (link : Link) (s : Session) : Session :=
  let e := link.endpoint
  { s with
    links := s.links.insert e.name link
    outputHandles := s.outputHandles.insert e.handle e.name
    inputHandles :=
      match e.remoteHandle with
      | some handle => s.inputHandles.insert handle e.name
      | none => s.inputHandles }

/-- Drops a link and its handles. -/
def remove (name : String) (s : Session) : Session :=
  match s.links.get? name with
  | none => s
  | some link =>
    { s with
      links := s.links.erase name
      outputHandles := s.outputHandles.erase link.endpoint.handle
      inputHandles :=
        match link.endpoint.remoteHandle with
        | some handle => s.inputHandles.erase handle
        | none => s.inputHandles }

/-- Drops all links. -/
def dropLinks (s : Session) : Session :=
  { s with links := ∅, outputHandles := ∅, inputHandles := ∅ }

/-- Lets the named links react one after another.  Names without a link are passed over. -/
def visit (react : Link → Link × List Link.Output) :
    List String → Table String Link → Table String Link × List Link.Output
  | [], links => (links, [])
  | name :: names, links =>
    match links.get? name with
    | none => visit react names links
    | some link =>
      let (link, outputs) := react link
      let (links, more) := visit react names (links.insert name link)
      (links, outputs ++ more)

/-! ## State -/

/-- Enters a state, which is published, and lets every link follow. -/
def enter (state : State) (s : Session) : Session × List Link.Output :=
  ({ s with
     state := state
     published := state
     publications := s.publications + 1
     links := s.links.mapValues fun link => (link.followSession state).1 },
    s.links.values.flatMap fun link => (link.followSession state).2)

/-- Follows the connection: once it is closed by the peer or over, a session that is mapped or in a
handshake is discarded. -/
def followConnection (connection : Connection.State) (s : Session) : Session :=
  let isOver := connection = .closeReceived ∨ connection = .ended
  if isOver ∧ s.state ≠ .discarding ∧ s.state ≠ .unmapped then (s.enter .discarding).1 else s

/-- Lets the timers of all links act. -/
def evaluate (now : Nat) (s : Session) : Session :=
  { s with links := s.links.mapValues (Link.evaluate now) }

end Session

end Amqp
