import Amqp.Session.Incoming
import Amqp.Transport

/-!
# Connections

A connection owns the transport and the sessions on its channels, which write through its `Carrier`.
It opens and closes with the peer, reads one frame at a time and hands it to the session that the
peer's channel leads to.  A fault that concerns one session leaves the connection intact; any other
ends it, after a Close that tells the cause if that can still be sent.
-/

namespace Amqp

namespace Connection

/-! ## Carriers -/

/-- The half of a connection that sessions write through. -/
structure Carrier where
  transport : Transport
  state : State := .start
  maxFrameSize : UInt32
  remoteMaxFrameSize : UInt32 := 4294967295

namespace Carrier

/-- Runs an action of the transport. -/
def transporting {α : Type} (x : Action Transport α) : Action Carrier α :=
  Action.within Carrier.transport (fun transport c => { c with transport }) x

/-- Sends a frame of a session, if the state of the connection lets sessions send. -/
def carry (channel : UInt16) (p : Performative) : Action Carrier Unit := do
  let state := (← get).state
  if !state.carriesSessions then
    Action.raise (.illegalState (.connectionCannotSend state p.name))
  transporting (Transport.send channel (.performative p))

instance : FrameCarrier Carrier where
  state := state
  maxFrameSize c := min c.maxFrameSize c.remoteMaxFrameSize
  carry := carry

end Carrier

end Connection

/-! ## Shutdown requests -/

/-- The instant of the first request, if there is one.  A requester that goes away counts as a
request. -/
structure Shutdown where
  requestedAt : Option Nat := none
deriving DecidableEq, Repr

namespace Shutdown

/-- Requests the shutdown at an instant. -/
def request (now : Nat) (s : Shutdown) : Shutdown where
  requestedAt :=
    match s.requestedAt with
    | none => some now
    | some earlier => some (min earlier now)

/-- Whether the shutdown has been requested by an instant. -/
def isRequested (now : Nat) (s : Shutdown) : Bool := s.requestedAt.any fun instant => instant ≤ now

/-- A request stays. -/
theorem isRequested_mono {s : Shutdown} {now later : Nat} (le : now ≤ later)
    (h : s.isRequested now) : s.isRequested later := by
  obtain ⟨_ | instant⟩ := s
  · simp [isRequested] at h
  · simp only [isRequested, Option.any_some, decide_eq_true_eq] at h ⊢
    exact Nat.le_trans h le

end Shutdown

/-! ## Connections -/

/-- The least frame size that a peer may announce. -/
def leastMaxFrameSize : UInt32 := 512

/-- A connection.  `incomingChannels` leads from the peer's channels to ours, and `sessionName`
names the session on a channel. -/
structure Connection where
  carrier : Connection.Carrier
  settings : Settings
  containerId : String
  sessionName : UInt16 → String
  remoteContainerId : Option String := none
  remoteChannelMax : UInt16 := 65535
  sessions : Table UInt16 Session := ∅
  incomingChannels : Table UInt16 UInt16 := ∅

namespace Connection

/-- A connection that has not been opened.  `identity` is its container id unless the settings give
one. -/
def create (transport : Transport) (settings : Settings) (identity : String)
    (sessionName : UInt16 → String) : Connection where
  carrier :=
    { transport := { transport with maxFrameSize := settings.connection.maxFrameSize }
      maxFrameSize := settings.connection.maxFrameSize }
  settings := settings
  containerId := settings.connection.containerId.getD identity
  sessionName := sessionName

/-- The state of a connection. -/
def state (c : Connection) : State := c.carrier.state

/-- The greatest frame that both ends accept. -/
def maxFrameSize (c : Connection) : UInt32 := FrameCarrier.maxFrameSize c.carrier

/-- The time between two polls of the transport, in milliseconds. -/
def idleWait (c : Connection) : Nat := max 1 c.settings.connection.idleWait.toNat

/-- The time on the clock of the stream. -/
def now (c : Connection) : Nat := c.carrier.transport.stream.now

/-! ## Parts -/

/-- Runs an action of the transport. -/
def transporting {α : Type} (x : Action Transport α) : Action Connection α :=
  Action.within carrier (fun carrier c => { c with carrier }) (Carrier.transporting x)

/-- Sends a frame of the connection itself. -/
def send (p : Performative) : Action Connection Unit :=
  transporting (Transport.send 0 (.performative p))

/-- Runs an action of the session on a channel. -/
def onSession {α : Type} (channel : UInt16) (x : Session.Acting Carrier α) :
    Action Connection α := fun c =>
  match c.sessions.get? channel with
  | none => .error (.fault (.unknownChannel channel)) c
  | some s =>
    match x (s, c.carrier) with
    | .ok a (s, carrier) =>
      .ok a { c with carrier, sessions := c.sessions.insert channel s }
    | .error halt (s, carrier) =>
      .error halt { c with carrier, sessions := c.sessions.insert channel s }

/-- Enters a state.  All sessions follow. -/
def enter (state : State) (c : Connection) : Connection :=
  if c.state = state then c
  else
    { c with
      carrier := { c.carrier with state }
      sessions := c.sessions.mapValues (Session.followConnection state) }

/-- Drops the session on a channel together with the ways to it. -/
def release (channel : UInt16) (c : Connection) : Connection :=
  { c with
    incomingChannels := c.incomingChannels.filter fun _ ours => ours ≠ channel
    sessions := c.sessions.erase channel }

/-- The least channel without a session. -/
def freeChannel (c : Connection) : Except Fault UInt16 :=
  let limit := min c.settings.connection.channelMax c.remoteChannelMax
  let channel := firstUnused (c.sessions.keys.map UInt16.toNat) 0
  if limit.toNat < channel then .error (.illegalState (.channelsInUse (limit.toNat + 1)))
  else .ok (UInt16.ofNat channel)

/-- Adds a session that has not begun, with settings of its own if they are given. -/
def addSession (settings : Option Settings.Session) (c : Connection) :
    Except Fault (UInt16 × Connection) := do
  let channel ← c.freeChannel
  let session := Session.create (c.sessionName channel) channel
    (settings.getD c.settings.session) c.settings.link
  return (channel, { c with sessions := c.sessions.insert channel session })

/-- Lets the timers of all sessions act. -/
def evaluate (c : Connection) : Connection :=
  { c with sessions := c.sessions.mapValues (Session.evaluate c.now) }

/-- Ends the connection and closes the transport. -/
def terminate (c : Connection) : Connection :=
  let c := c.enter .ended
  { c with carrier := { c.carrier with transport := c.carrier.transport.close } }

/-! ## Incoming frames -/

/-- Takes the peer's Open. -/
def onOpen (o : Open) : Action Connection Unit := do
  let state := (← get).state
  if state ≠ .openSent then Action.raise (.malformed (.unexpectedOpen state))
  let size := o.maxFrameSize.getD 4294967295
  if size < leastMaxFrameSize then
    Action.raise (.malformed (.peerFrameSizeTooSmall size leastMaxFrameSize))
  modify fun c =>
    { c with
      carrier := { c.carrier with remoteMaxFrameSize := size }
      remoteChannelMax := o.channelMax.getD 65535
      remoteContainerId := some o.containerId }
  modify (enter .opened)

/-- Takes the peer's Close, answering it if no Close has been sent. -/
def onClose : Action Connection Unit := do
  if (← get).state ≠ .closeSent then
    modify (enter .closeReceived)
    send (.close {})
  modify terminate

/-- Takes the peer's Begin: the answer to one of ours, or the start of a new session. -/
def onBegin (channel : UInt16) (begin : Begin) : Action Connection Unit := do
  let c ← get
  match begin.remoteChannel with
  | some known =>
    if !c.sessions.contains known then Action.raise (.unknownChannel known)
    set { c with incomingChannels := c.incomingChannels.insert channel known }
    onSession known (Session.dispatch channel (.begin begin))
  | none =>
    let fresh ← Action.ofExcept c.freeChannel
    let session ← Action.within carrier (fun carrier c => { c with carrier })
      (Session.ofBegin (c.sessionName fresh) fresh channel begin c.settings.session
        c.settings.link)
    modify fun c =>
      { c with
        incomingChannels := c.incomingChannels.insert channel fresh
        sessions := c.sessions.insert fresh session }

/-- Hands a frame to the session that the peer's channel leads to.  A session that is unmapped after
it is dropped, also when the frame failed. -/
def onSessionFrame (channel : UInt16) (p : Performative) : Action Connection Unit := do
  let c ← get
  match c.incomingChannels.get? channel with
  | none => Action.raise (.unknownChannel channel)
  | some known =>
    if !c.sessions.contains known then Action.raise (.unknownChannel channel)
    let dropUnmapped := fun (c : Connection) =>
      if (c.sessions.get? known).any fun s => s.state = .unmapped then c.release known else c
    fun c =>
      match onSession known (Session.dispatch channel p) c with
      | .ok _ c => .ok () (dropUnmapped c)
      | .error halt c => .error halt (dropUnmapped c)

/-- Takes a frame. -/
def dispatch (channel : UInt16) : Performative → Action Connection Unit
  | .openFrame v => onOpen v
  | .close _ => onClose
  | .begin v => onBegin channel v
  | p => onSessionFrame channel p

/-! ## Failing -/

/-- The error that a Close after a fault tells. -/
def closeError (cause : Fault) : ErrorInfo where
  condition :=
    match cause with
    | .malformed _ => Condition.decodeError
    | _ => Condition.internalError
  description := some cause.message

/-- Ends the connection because of a fault, after a Close if one may still be sent. -/
def abort (cause : Fault) : Action Connection Unit := do
  let c ← get
  if c.carrier.transport.isConnected && c.state != .start && c.state != .closeSent &&
      c.state != .ended then
    Action.tolerant (send (.close { error := some (closeError cause) }))
  modify terminate

/-- Lets a fault end the connection, unless `spares` says that it may live on. -/
def guarded (spares : Fault → Bool) (x : Action Connection Unit) : Action Connection Unit :=
  fun c =>
    match x c with
    | .error (.fault f) c =>
      if spares f then .ok () c
      else
        match abort f c with
        | .ok _ c => .error (.fault f) c
        | .error halt c => .error halt c
    | r => r

/-- Reads a frame if one arrives in time, and takes it.  A fault that concerns a session only is
passed over; any other ends the connection. -/
def poll (wait : Option Nat) : Action Connection Unit := fun c =>
  match transporting (Transport.receive wait) c with
  | .error (.fault f) c => guarded (fun _ => false) (Action.raise f) c
  | .error .stalled c => .error .stalled c
  | .ok (some (channel, .performative p)) c =>
    guarded Fault.isSessionLocal (dispatch channel p) c
  | .ok _ c => .ok () c

/-! ## Waiting -/

/-- A bound on the number of polls: every poll takes time, an event of the stream, or octets from
the buffer. -/
def pollBound (c : Connection) : Nat :=
  let t := c.carrier.transport
  let weight := fun (e : ReadEvent) =>
    match e with
    | .octets b => b.length + 1
    | _ => 1
  t.stream.reads.foldl (fun n e => n + weight e)
    (t.stream.horizon + 1 - t.stream.now + t.buffer.length + 1)

/-- Polls the transport until a condition holds or the time is up; `fuel` bounds the polls. -/
def pollUntil (reached : Connection → Bool) (deadline : Option Nat) :
    (fuel : Nat) → Action Connection WaitResult
  | 0 => throw .stalled
  | fuel + 1 => do
    let c ← get
    if reached c then return .reached
    if c.state = .ended then Action.raise (.closed .endedWhileWaiting)
    match deadline with
    | none => poll (some c.idleWait)
    | some instant =>
      if instant ≤ c.now then return .timedOut
      poll (some (min c.idleWait (instant - c.now)))
    pollUntil reached deadline fuel

/-- Waits until a condition holds. -/
def await (wait : Patience) (reached : Connection → Bool) : Action Connection WaitResult := do
  let c ← get
  pollUntil reached (wait.deadline? c.now) c.pollBound

/-- Waits until the session on a channel is in a state.  Unmapped sessions are dropped, so a missing
one counts as unmapped. -/
def awaitSession (channel : UInt16) (state : Session.State) (wait : Patience) :
    Action Connection WaitResult :=
  await wait fun c =>
    match c.sessions.get? channel with
    | some s => s.state = state
    | none => state = .unmapped

/-! ## Opening and closing -/

/-- The Open of a connection. -/
def toOpen (c : Connection) : Open where
  containerId := c.containerId
  hostname := c.settings.connection.hostname <|> some c.settings.transport.host
  maxFrameSize := some c.carrier.maxFrameSize
  channelMax := some c.settings.connection.channelMax

/-- Exchanges the protocol headers and sends Open. -/
def openUp (wait : Patience) : Action Connection WaitResult := do
  let state := (← get).state
  if state ≠ .start then Action.raise (.illegalState (.connectionCannotOpen state))
  transporting Transport.ensureConnected
  transporting Transport.negotiateTls
  transporting (Transport.exchange protocolHeader)
  modify (enter .headersExchanged)
  send (.openFrame (← get).toOpen)
  modify (enter .openSent)
  if !wait.waits then return .notWaited
  await wait fun c => c.state = .opened

/-- Waits for the end of the connection, and ends it when the wait is over. -/
def awaitEnd (wait : Patience) : Action Connection WaitResult := fun c =>
  match await wait (fun c => c.state = .ended) c with
  | .ok .reached c => .ok .reached c
  | .ok outcome c => .ok outcome c.terminate
  | .error (.fault f) c => .error (.fault f) c.terminate
  | .error .stalled c => .error .stalled c

/-- Sends Close, unless that has been done.  A wait that times out drops the transport anyway. -/
def close (error : Option ErrorInfo) (wait : Patience) : Action Connection WaitResult := do
  match (← get).state with
  | .ended => return .reached
  | .start =>
    modify terminate
    return .reached
  | .closeSent | .discarding => pure ()
  | _ =>
    send (.close { error })
    modify (enter .closeSent)
  if !wait.waits then return .notWaited
  awaitEnd wait

/-! ## Sessions -/

/-- Begins the session on a channel. -/
def beginOn (channel : UInt16) (wait : Patience) : Action Connection WaitResult := do
  onSession channel (Session.begin wait)
  if !wait.waits then return .notWaited
  awaitSession channel .mapped wait

/-- Ends the session on a channel. -/
def finishOn (channel : UInt16) (error : Option ErrorInfo) (wait : Patience) :
    Action Connection WaitResult := do
  onSession channel (Session.finish error)
  if ((← get).sessions.get? channel).any fun s => s.state ≠ .endSent then return .reached
  if !wait.waits then return .notWaited
  awaitSession channel .unmapped wait

/-! ## Running -/

/-- Drives the connection until it ends.  A shutdown request is looked for before each poll and
closes the connection; `fuel` bounds the polls. -/
def driveWithin (shutdown : Shutdown) : (fuel : Nat) → Action Connection Unit
  | 0 => throw .stalled
  | fuel + 1 => do
    let c ← get
    if c.state = .ended then return
    if shutdown.isRequested c.now then
      discard <| close none (.limited c.settings.connection.closeTimeout.toNat)
    else
      poll (some c.idleWait)
      modify evaluate
      driveWithin shutdown fuel

/-- Drives the connection until it ends or a shutdown is requested. -/
def drive (shutdown : Shutdown) : Action Connection Unit := do
  driveWithin shutdown (← get).pollBound

end Connection

end Amqp
