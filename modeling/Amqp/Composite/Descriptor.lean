/-!
# Descriptors

The numbers that describe the performatives and the composites inside them, and the error
conditions that this library reports itself.
-/

namespace Amqp

namespace Descriptor

def openFrame : UInt64 := 0x10
def begin : UInt64 := 0x11
def attach : UInt64 := 0x12
def flow : UInt64 := 0x13
def transfer : UInt64 := 0x14
def disposition : UInt64 := 0x15
def detach : UInt64 := 0x16
def endFrame : UInt64 := 0x17
def close : UInt64 := 0x18
def error : UInt64 := 0x1D
def received : UInt64 := 0x23
def accepted : UInt64 := 0x24
def rejected : UInt64 := 0x25
def released : UInt64 := 0x26
def modified : UInt64 := 0x27
def source : UInt64 := 0x28
def target : UInt64 := 0x29

end Descriptor

namespace Condition

def internalError : String := "amqp:internal-error"
def decodeError : String := "amqp:decode-error"
def unattachedHandle : String := "amqp:session:unattached-handle"
def handleInUse : String := "amqp:session:handle-in-use"
def messageSizeExceeded : String := "amqp:link:message-size-exceeded"

end Condition

end Amqp
