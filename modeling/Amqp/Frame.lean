import Amqp.Performative.Decoding
import Amqp.Performative.Encoding

/-!
# Frames

A frame is a header of eight octets (size, data offset, type, channel), a possible extended header
and a body.  The data offset counts words of four octets up to the body.  A frame without anything
behind its header is a heartbeat.  `Frame.encode` writes the whole frame of a performative, or the
empty frame.
-/

namespace Amqp

/-- The number of octets of a frame header. -/
def frameHeaderSize : Nat := 8

/-- The data offset of a frame without extended header, in words of four octets. -/
def defaultDataOffset : UInt8 := 2

/-- The type of the frames that carry performatives. -/
def amqpFrameType : UInt8 := 0

/-- The fixed part of a frame. -/
structure FrameHeader where
  size : UInt32
  dataOffset : UInt8
  type : UInt8
  channel : UInt16
deriving DecidableEq, Repr

namespace FrameHeader

/-- Reads a header; octets behind it are ignored. -/
def ofBytes (b : Bytes) : Except Fault FrameHeader :=
  match b with
  | s₃ :: s₂ :: s₁ :: s₀ :: dataOffset :: type :: c₁ :: c₀ :: _ =>
    .ok
      { size := UInt32.ofNat (Word.decode [s₃, s₂, s₁, s₀]), dataOffset, type,
        channel := UInt16.ofNat (Word.decode [c₁, c₀]) }
  | _ => .error (.malformed (.shortFrameHeader b.length))

/-- Whether nothing follows the header. -/
def isEmpty (h : FrameHeader) : Bool := h.size == 0 || h.size.toNat == frameHeaderSize

/-- The number of octets between the fixed header and the body. -/
def extendedLength (h : FrameHeader) : Except Fault Nat :=
  let offset := h.dataOffset.toNat * 4
  if offset < frameHeaderSize ∨ h.size.toNat < offset then
    .error (.malformed (.invalidDataOffset h.dataOffset h.size))
  else .ok (offset - frameHeaderSize)

/-- The number of octets behind the fixed header. -/
def bodyLength (h : FrameHeader) : Nat := h.size.toNat - frameHeaderSize

end FrameHeader

/-- What a frame carries. -/
inductive Frame where
  | heartbeat
  | performative (p : Performative)

namespace Frame

/-- Size, data offset and type of a frame with a body of the given length. -/
def leader (bodyLength : Nat) : Bytes :=
  Word.encode 4 (bodyLength + frameHeaderSize) ++ [defaultDataOffset, amqpFrameType]

/-- The octets of an empty frame, which goes out on channel 0. -/
def empty : Bytes := leader 0 ++ Word.encode 2 0

/-- The octets of the frame of a performative. -/
def encodePerformative (channel : UInt16) (p : Performative) : Bytes :=
  let body := p.encode
  leader body.length ++ (Word.encode 2 channel.toNat ++ body)

/-- The octets of a frame; a heartbeat is always written on channel 0. -/
def encode (channel : UInt16) : Frame → Bytes
  | heartbeat => empty
  | performative p => encodePerformative channel p

/-- The number of octets of the frame of a performative. -/
def size (p : Performative) : Nat := p.encode.length + frameHeaderSize

/-- The heartbeat in the octets of a header. -/
def ofHeader (header : Bytes) : Except Fault Frame := do
  let h ← FrameHeader.ofBytes header
  if h.isEmpty then return heartbeat
  else throw (.malformed (.frameNotEmpty h.size h.channel))

end Frame

end Amqp
