import Amqp.Action
import Amqp.Frame
import Amqp.Settings
import Amqp.Stream
import Amqp.Text.Quoted

/-!
# Transports

A transport moves whole frames over a byte stream.  Octets of a frame whose read was cut short stay
in a buffer, where the next read begins, so that a timeout never loses the frame boundary.  After a
fault other than a timeout the transport no longer counts as connected.
-/

namespace Amqp

/-- The header that opens a connection. -/
def protocolHeader : Bytes := [65, 77, 81, 80, 0, 1, 0, 0]

/-- The header that negotiates encryption. -/
def tlsHeader : Bytes := [65, 77, 81, 80, 2, 1, 0, 0]

/-- A transport.  `isOpen` tells whether it still holds its stream. -/
structure Transport where
  host : String
  port : UInt16
  tls : Option Settings.Tls
  readTimeout : Option Nat
  writeTimeout : Option Nat
  toleratesInterrupt : Bool
  maxFrameSize : UInt32 := 4294967295
  stream : Stream
  isOpen : Bool
  buffer : Bytes := []
  isConnected : Bool
  isTls : Bool := false

namespace Transport

/-- A transport over a stream that is established already, or one that is not connected. -/
def create (settings : Settings.Transport) (stream : Stream) (isConnected : Bool) :
    Transport where
  host := settings.host
  port := settings.port
  tls := settings.tls
  readTimeout := settings.readTimeout.map UInt64.toNat
  writeTimeout := settings.writeTimeout.map UInt64.toNat
  toleratesInterrupt := settings.toleratesInterrupt
  stream := stream
  isOpen := isConnected
  isConnected := isConnected

/-- A transport in messages. -/
def text (t : Transport) : String :=
  let flag := fun (b : Bool) => if b then "true" else "false"
  "Transport \x7b host: " ++ Text.quoted t.host ++ ", port: " ++ toString t.port.toNat ++
    ", connected: " ++ flag t.isConnected ++ ", tls: " ++ flag t.tls.isSome ++ " \x7d"

/-- The halt that a stream's result stands for. -/
def haltOf : Option Fault → Halt
  | some f => .fault f
  | none => .stalled

/-- Lets a fault other than a timeout end the connected state. -/
def watched {α : Type} (x : Action Transport α) : Action Transport α := fun t =>
  match x t with
  | .error (.fault f) t =>
    .error (.fault f) (if f.isTimeout then t else { t with isConnected := false })
  | r => r

/-! ## Reading -/

/-- Reads a number of octets, those in the buffer first.  `initial` says that a frame begins here.
On a failure all that was read is back in the buffer. -/
def take (size : Nat) (initial : Bool) (wait : Option Nat) : Action Transport Bytes := fun t =>
  let buffered := t.buffer.take size
  let behind := t.buffer.drop size
  if buffered.length = size then .ok buffered { t with buffer := behind }
  else if !t.isOpen then .error (.fault (.closed .transportClosed)) t
  else
    let o : ReadPolicy :=
      { timeout := wait <|> t.readTimeout, toleratesInterrupt := initial && t.toleratesInterrupt }
    let s := t.stream
    let filled :=
      fill o s.horizon (size - buffered.length) (o.deadline s.now) false buffered s.now s.reads
    let stream := { s with now := filled.now, reads := filled.rest }
    match filled.result with
    | .ok () => .ok filled.octets { t with stream, buffer := behind }
    | .error e => .error (haltOf e) { t with stream, buffer := filled.octets ++ behind }

/-- Reads a payload in pieces of at most `ceiling` octets.  On a failure the pieces before it are
back in the buffer, behind `read`. -/
def takePieces (ceiling : Nat) (wait : Option Nat) :
    (fuel missing : Nat) → (read : Bytes) → Action Transport Bytes
  | 0, _, read => pure read
  | fuel + 1, missing, read => fun t =>
    if missing = 0 then .ok read t
    else
      let size := min ceiling missing
      match take size false wait t with
      | .ok piece t => takePieces ceiling wait fuel (missing - size) (read ++ piece) t
      | .error halt t => .error halt { t with buffer := read ++ t.buffer }

/-- Reads a frame: its raw header, the header and, unless it is empty, its body.  A payload is read
in pieces of at most `ceiling` octets. -/
def takeFrame (ceiling : Nat) (wait : Option Nat) :
    Action Transport (Bytes × FrameHeader × Option Bytes) := do
  let raw ← take frameHeaderSize true wait
  let header ← Action.ofExcept (FrameHeader.ofBytes raw)
  let limit := (← get).maxFrameSize
  if limit < header.size then
    Action.raise (.malformed (.frameTooLarge header.size header.channel limit))
  if header.isEmpty then return (raw, header, none)
  if header.type ≠ amqpFrameType then
    Action.raise (.malformed (.unsupportedFrameType header.type header.channel))
  let skip ← Action.ofExcept header.extendedLength
  let read ← takePieces ceiling wait header.bodyLength header.bodyLength raw
  return (raw, header, some (read.drop (frameHeaderSize + skip)))

/-- The greatest piece that is read at once. -/
def readCeiling : Nat := 2147483647

/-- Reads a number of octets.  `wait` takes the place of the read timeout. -/
def readOctets (size : Nat) (wait : Option Nat) : Action Transport Bytes :=
  watched (take size true wait)

/-- Reads a frame: its raw header, its channel and, unless it is empty, its body. -/
def readRaw (wait : Option Nat) : Action Transport (Bytes × UInt16 × Option Bytes) := do
  let (raw, header, body) ← watched (takeFrame readCeiling wait)
  return (raw, header.channel, body)

/-- What a frame that has been read carries. -/
def decodeBody (raw : Bytes) : Option Bytes → Except Fault Frame
  | none => Frame.ofHeader raw
  | some body => Frame.performative <$> Performative.decode body

/-- Receives a frame on its channel, or nothing if none has arrived in time. -/
def receive (wait : Option Nat) : Action Transport (Option (UInt16 × Frame)) := fun t =>
  match readRaw wait t with
  | .error (.fault .timeout) t => .ok none t
  | .error halt t => .error halt t
  | .ok (raw, channel, body) t =>
    match decodeBody raw body with
    | .ok frame => .ok (some (channel, frame)) t
    | .error f => .error (.fault f) t

/-! ## Writing -/

/-- Writes all data within the write timeout. -/
def write (data : Bytes) : Action Transport Unit := fun t =>
  if !t.isOpen then .error (.fault (.closed .transportClosed)) t
  else
    watched
      (fun t =>
        let s := t.stream
        let poured := pour s.horizon (t.writeTimeout.map (s.now + ·)) s.taken s.now data s.writes
        let stream :=
          { s with now := poured.now, writes := poured.rest, taken := poured.taken }
        match poured.result with
        | .ok () => .ok () { t with stream }
        | .error e => .error (haltOf e) { t with stream })
      t

/-- Writes a frame. -/
def send (channel : UInt16) (frame : Frame) : Action Transport Unit :=
  write (frame.encode channel)

/-! ## Handshakes -/

/-- Sends a protocol header and checks that the peer answers with the same one. -/
def exchange (expected : Bytes) : Action Transport Unit := do
  write expected
  let received ← readOctets expected.length none
  if received ≠ expected then Action.raise (.headerMismatch expected received)

/-- Exchanges the header that negotiates encryption, on an encrypted transport. -/
def negotiateTls : Action Transport Unit := do
  if (← get).isTls then exchange tlsHeader

/-- Makes sure that the transport is connected.  One that is not can not connect by itself. -/
def ensureConnected : Action Transport Unit := do
  if !(← get).isConnected then Action.raise (.stream .notConnected)

/-- Gives up the stream.  A transport that has none stays as it is. -/
def close (t : Transport) : Transport :=
  { t with
    stream := { t.stream with isShutDown := t.stream.isShutDown || t.isOpen }
    isOpen := false
    buffer := []
    isConnected := false
    isTls := false }

end Transport

end Amqp
