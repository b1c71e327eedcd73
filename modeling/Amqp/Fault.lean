import Amqp.State
import Amqp.Text.Utf8
import Amqp.Value.Text

/-!
# Faults

`Fault` lists everything that can go wrong: broken input from the peer, operations that the current
state does not allow, values out of range, failures of the byte stream and limits of a session.
`Fault.message` words each of them.  `Fault.isSessionLocal` singles out the faults that concern
one session only; the connection outlives those.
-/

namespace Amqp

/-! ## Causes -/

/-- Input that breaks the protocol. -/
inductive Malformation where
  | truncated (what : String) (needed left : Nat)
  | sizeBelowCount (what : String) (size : Nat)
  | tooManyElements (what : String) (count limit : Nat)
  | oddMap (count : Nat)
  | invalidChar (code : Nat)
  | invalidUtf8 (fault : Utf8.Fault)
  | unsupportedConstructor (code : UInt8)
  | notDescribed (composite : String) (found : Value)
  | unexpectedDescriptor (composite : String) (found : Value)
  | wrongDescriptor (composite : String) (expected found : UInt64)
  | bodyNotList (composite : String) (found : Value)
  | unexpectedField (composite field : String) (found : Value)
  | missingField (composite field : String)
  | undescribedDeliveryState (found : Value)
  | unknownDeliveryState (code : UInt64)
  | undescribedPerformative
  | unknownPerformative (code : UInt64)
  | trailingBytes (count : Nat) (performative : String)
  | shortFrameHeader (length : Nat)
  | invalidDataOffset (offset : UInt8) (size : UInt32)
  | frameNotEmpty (size : UInt32) (channel : UInt16)
  | frameTooLarge (size : UInt32) (channel : UInt16) (limit : UInt32)
  | unsupportedFrameType (type : UInt8) (channel : UInt16)
  | transferToSender (handle : UInt32) (link : String)
  | missingDeliveryId (link : String)
  | notSessionFrame (performative : String)
  | unexpectedOpen (state : Connection.State)
  | peerFrameSizeTooSmall (size limit : UInt32)
  | other (text : String)

/-- An operation that the current state does not allow. -/
inductive IllegalState where
  | linkNotAttached (link : String) (state : Link.State)
  | sessionCannotBegin (session : String) (state : Session.State)
  | connectionCannotOpen (state : Connection.State)
  | connectionCannotSend (state : Connection.State) (performative : String)
  | channelsInUse (count : Nat)
  | other (text : String)

/-- An argument or a setting out of range. -/
inductive InvalidValue where
  | senderSettleMode (code : UInt8)
  | receiverSettleMode (code : UInt8)
  | messageTooLong (size : Nat) (limit : UInt64)
  | transferHeaderTooLong (size limit : Nat)
  | notUnsettled (delivery : UInt32) (link : String)
  | notSender (link : String)
  | notReceiver (link : String)
  | tlsVersion (version : String)
  | certificateWithoutKey
  | other (text : String)

/-- Why the byte stream is gone. -/
inductive Closure where
  | transportClosed
  | endOfStream
  | endedWhileWaiting
  | other (text : String)

/-- A use of the peer that configuration rules out. -/
inductive PolicyViolation where
  | pipelinedOpen
  | other (text : String)

/-- Failures of a read or a write of the byte stream. -/
inductive StreamFault where
  | interrupted
  | wouldBlock
  | timedOut
  | connectionReset
  | connectionAborted
  | brokenPipe
  | unexpectedEof
  | notConnected
  | permissionDenied
  | writeZero
deriving DecidableEq, Repr

/-- Everything that an operation can fail with. -/
inductive Fault where
  | illegalState (cause : IllegalState)
  | malformed (cause : Malformation)
  | invalidValue (cause : InvalidValue)
  | network (text : String)
  | stream (cause : StreamFault)
  | configFile
  | timeout
  | closed (cause : Closure)
  | tls (text : String)
  | headerMismatch (expected received : Bytes)
  | handlesExhausted (limit : UInt32)
  | unattachedHandle (handle : UInt32)
  | handleInUse (handle : UInt32)
  | unknownLink (name : String)
  | unknownChannel (channel : UInt16)
  | policyViolation (cause : PolicyViolation)

/-! ## Wording -/

/-- What a malformation says. -/
def Malformation.message : Malformation → String
  | truncated what needed left =>
    s!"can not read a {what}, need {needed} bytes but {left} left"
  | sizeBelowCount what size => s!"{what} size {size} smaller than its count field"
  | tooManyElements what count limit =>
    s!"{what} claims {count} elements, at most {limit} fit"
  | oddMap count => s!"map with odd element count {count}"
  | invalidChar code => "invalid char code point " ++ Text.hex code
  | invalidUtf8 fault => fault.message
  | unsupportedConstructor code => "unsupported type constructor " ++ Text.hexByte code
  | notDescribed composite found => s!"{composite}: not a described value: {found.text}"
  | unexpectedDescriptor composite found =>
    s!"{composite}: unexpected descriptor {found.text}"
  | wrongDescriptor composite expected found =>
    s!"{composite}: expected descriptor {Text.hex expected.toNat}, found {Text.hex found.toNat}"
  | bodyNotList composite found => s!"{composite}: body is not a list: {found.text}"
  | unexpectedField composite field found =>
    s!"{composite}.{field}: unexpected value {found.text}"
  | missingField composite field => s!"{composite}.{field} is mandatory"
  | undescribedDeliveryState found => s!"delivery state is not described: {found.text}"
  | unknownDeliveryState code => "unknown delivery state " ++ Text.hex code.toNat
  | undescribedPerformative => "frame body is not a described performative"
  | unknownPerformative code => "unknown performative " ++ Text.hex code.toNat
  | trailingBytes count performative => s!"{count} trailing bytes after {performative}"
  | shortFrameHeader length => s!"frame header needs 8 bytes, got {length}"
  | invalidDataOffset offset size =>
    s!"invalid data offset {offset.toNat} for frame of size {size.toNat}"
  | frameNotEmpty size channel =>
    s!"frame of size {size.toNat} on channel {channel.toNat} is not empty"
  | frameTooLarge size channel limit =>
    s!"frame of {size.toNat} bytes on channel {channel.toNat} exceeds the max frame size " ++
      s!"{limit.toNat}"
  | unsupportedFrameType type channel =>
    s!"unsupported frame type {Text.hexByte type} on channel {channel.toNat}"
  | transferToSender handle link =>
    s!"transfer on handle {handle.toNat} received by sending link '{link}'"
  | missingDeliveryId link => s!"first transfer of a delivery on link '{link}' has no delivery id"
  | notSessionFrame performative => s!"{performative} is not a session frame"
  | unexpectedOpen state => s!"unexpected open in state {state.name}"
  | peerFrameSizeTooSmall size limit =>
    s!"peer max frame size {size.toNat} is below {limit.toNat}"
  | other text => text

/-- What an illegal state says. -/
def IllegalState.message : IllegalState → String
  | linkNotAttached link state => s!"link '{link}' is not attached: {state.name}"
  | sessionCannotBegin session state => s!"session '{session}' cannot begin in state {state.name}"
  | connectionCannotOpen state => s!"connection cannot open in state {state.name}"
  | connectionCannotSend state performative =>
    s!"connection in state {state.name} cannot send {performative}"
  | channelsInUse count => s!"all {count} channels are in use"
  | other text => text

/-- What an invalid value says. -/
def InvalidValue.message : InvalidValue → String
  | senderSettleMode code => s!"sender settle mode {code.toNat}"
  | receiverSettleMode code => s!"receiver settle mode {code.toNat}"
  | messageTooLong size limit =>
    s!"message of {size} bytes exceeds the peer's limit of {limit.toNat}"
  | transferHeaderTooLong size limit =>
    s!"transfer header of {size} bytes does not fit a frame of {limit} bytes"
  | notUnsettled delivery link => s!"delivery {delivery.toNat} is not unsettled on link '{link}'"
  | notSender link => s!"link '{link}' is not a sender"
  | notReceiver link => s!"link '{link}' is not a receiver"
  | tlsVersion version => s!"unsupported TLS version {version}"
  | certificateWithoutKey => "certfile and keyfile must be given together"
  | other text => text

/-- What a closure says. -/
def Closure.message : Closure → String
  | transportClosed => "transport is closed"
  | endOfStream => "server unexpectedly closed connection"
  | endedWhileWaiting => "connection ended while waiting"
  | other text => text

/-- What a policy violation says. -/
def PolicyViolation.message : PolicyViolation → String
  | pipelinedOpen => "pipelined open is not allowed, a wait mode is required"
  | other text => text

/-- What a stream fault says. -/
def StreamFault.message : StreamFault → String
  | interrupted => "operation interrupted"
  | wouldBlock => "operation would block"
  | timedOut => "timed out"
  | connectionReset => "connection reset"
  | connectionAborted => "connection aborted"
  | brokenPipe => "broken pipe"
  | unexpectedEof => "unexpected end of file"
  | notConnected => "not connected"
  | permissionDenied => "permission denied"
  | writeZero => "write zero"

/-- Octets as a list of decimal numbers. -/
def octetList (b : Bytes) : String := Text.bracketed (b.map fun x => toString x.toNat)

namespace Fault

/-- What a fault says. -/
def message : Fault → String
  | illegalState cause => "illegal state: " ++ cause.message
  | malformed cause => "malformed protocol : " ++ cause.message
  | invalidValue cause => "invalid value: " ++ cause.message
  | network text => "I/O error: " ++ text
  | stream cause => "io error: " ++ cause.message
  | configFile => "config file error"
  | timeout => "read timed out"
  | closed cause => "connection closed: " ++ cause.message
  | tls text => "tls error: " ++ text
  | headerMismatch expected received =>
    s!"mismatching protocol header, expected: {octetList expected}, " ++
      s!"received: {octetList received}"
  | handlesExhausted limit => s!"maximum number of handles ({limit.toNat}) has been reached"
  | unattachedHandle handle => s!"unattached handle: {handle.toNat}"
  | handleInUse handle => s!"handle {handle.toNat} is already in use"
  | unknownLink name => "unknown link: " ++ name
  | unknownChannel channel => s!"unknown channel: {channel.toNat}"
  | policyViolation cause => "policy violation: " ++ cause.message

/-- Whether the fault is a read or a write that ran out of time. -/
def isTimeout : Fault → Bool
  | timeout => true
  | _ => false

/-- Whether the fault concerns one session, or one link inside it, and leaves the connection
intact. -/
def isSessionLocal : Fault → Bool
  | handlesExhausted _ | unattachedHandle _ | handleInUse _ | unknownLink _ | unknownChannel _
  | policyViolation _ => true
  | _ => false

end Fault

end Amqp
