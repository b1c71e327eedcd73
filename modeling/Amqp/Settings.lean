import Amqp.Fault

/-!
# Settings

What a client can be told about its transport, connection, sessions and links.  Every setting has a
default.  Durations are in milliseconds unless their name says otherwise.
-/

namespace Amqp.Settings

/-- Options of the socket; an absent one takes its default. -/
structure Socket where
  keepalive : Option Bool := none
  nodelay : Option Bool := none
  lingerSeconds : Option UInt64 := none
  receiveBufferSize : Option UInt32 := none
  sendBufferSize : Option UInt32 := none
deriving DecidableEq, Repr

/-- The defaults of the socket options. -/
def Socket.defaults : Socket := { keepalive := some true, nodelay := some true }

/-- The given options, and the defaults where none is given. -/
def Socket.withDefaults (s : Socket) : Socket where
  keepalive := s.keepalive <|> Socket.defaults.keepalive
  nodelay := s.nodelay <|> Socket.defaults.nodelay
  lingerSeconds := s.lingerSeconds <|> Socket.defaults.lingerSeconds
  receiveBufferSize := s.receiveBufferSize <|> Socket.defaults.receiveBufferSize
  sendBufferSize := s.sendBufferSize <|> Socket.defaults.sendBufferSize

/-- Options of an encrypted transport.  Both versions "1.2" and "1.3" are allowed when none is
given. -/
structure Tls where
  version : Option String := none
  verify : Bool := true
  checkHostname : Bool := true
  certificateFile : Option String := none
  keyFile : Option String := none
  authorityFile : Option String := none
deriving DecidableEq, Repr

/-- Checks the options where no certificate file can be read. -/
def Tls.check (t : Tls) : Except Fault Unit := do
  match t.version with
  | none | some "1.2" | some "1.3" => pure ()
  | some version => throw (.invalidValue (.tlsVersion version))
  if t.verify then
    if let some file := t.authorityFile then throw (.tls file)
  match t.certificateFile, t.keyFile with
  | none, none => pure ()
  | some file, some _ => throw (.tls file)
  | _, _ => throw (.invalidValue .certificateWithoutKey)

/-- Settings of the transport.  `toleratesInterrupt` lets a read that is interrupted before
the first octet of a frame count as a read without data. -/
structure Transport where
  host : String := "localhost"
  port : UInt16 := 5672
  connectTimeout : Option UInt64 := none
  readTimeout : Option UInt64 := none
  writeTimeout : Option UInt64 := none
  toleratesInterrupt : Bool := true
  socket : Socket := {}
  tls : Option Tls := none
deriving DecidableEq, Repr

/-- Settings of the connection.  `idleWait` is the time between two polls of the transport and
`closeTimeout` bounds the wait for the peer's Close at a shutdown. -/
structure Connection where
  containerId : Option String := none
  hostname : Option String := none
  maxFrameSize : UInt32 := 1048576
  channelMax : UInt16 := 65535
  idleWait : UInt64 := 100
  closeTimeout : UInt64 := 5000
deriving DecidableEq, Repr

/-- Settings of a session. -/
structure Session where
  nextOutgoingId : UInt32 := 0
  incomingWindow : UInt32 := 65536
  outgoingWindow : UInt32 := 65536
  handleMax : UInt32 := 4294967295
  offeredCapabilities : Option (List String) := none
  desiredCapabilities : Option (List String) := none
  allowPipelinedOpen : Bool := true
deriving DecidableEq, Repr

/-- Settings of a link.  `prefetch` is the credit that a receiver grants once it is attached, and
again when its credit is used up.  The settlement modes are given by their numbers. -/
structure Link where
  prefetch : UInt32 := 300
  autoAccept : Bool := true
  sendTimeout : Option UInt64 := none
  maxMessageSize : Option UInt64 := none
  senderSettleMode : UInt8 := 2
  receiverSettleMode : UInt8 := 0
deriving DecidableEq, Repr

end Amqp.Settings

namespace Amqp

/-- Settings of a client. -/
structure Settings where
  transport : Settings.Transport := {}
  connection : Settings.Connection := {}
  session : Settings.Session := {}
  link : Settings.Link := {}
deriving DecidableEq, Repr

end Amqp
