import Amqp.Fault

/-!
# Roles and settlement modes
-/

namespace Amqp

/-- The part an end plays on a link. -/
inductive Role where
  | sender
  | receiver
deriving DecidableEq, Repr

namespace Role

/-- The part that the other end plays. -/
def opposite : Role → Role
  | sender => receiver
  | receiver => sender

/-- The flag that stands for a role on the wire. -/
def isReceiver : Role → Bool
  | sender => false
  | receiver => true

/-- The role that a flag stands for. -/
def ofFlag (isReceiver : Bool) : Role := if isReceiver then receiver else sender

theorem opposite_opposite (r : Role) : r.opposite.opposite = r := by cases r <;> rfl

theorem ofFlag_isReceiver (r : Role) : ofFlag r.isReceiver = r := by cases r <;> rfl

end Role

/-- When a sender settles its deliveries. -/
inductive SenderSettleMode where
  | unsettled
  | settled
  | mixed
deriving DecidableEq, Repr

namespace SenderSettleMode

/-- The number of a mode. -/
def code : SenderSettleMode → UInt8
  | unsettled => 0
  | settled => 1
  | mixed => 2

/-- The name of a mode. -/
def name : SenderSettleMode → String
  | unsettled => "Unsettled"
  | settled => "Settled"
  | mixed => "Mixed"

/-- The mode with a given number. -/
def ofCode (code : UInt8) : Except Fault SenderSettleMode :=
  if code = 0 then .ok unsettled
  else if code = 1 then .ok settled
  else if code = 2 then .ok mixed
  else .error (.invalidValue (.senderSettleMode code))

theorem ofCode_code (m : SenderSettleMode) : ofCode m.code = .ok m := by cases m <;> rfl

end SenderSettleMode

/-- Whether a receiver settles at once, or after the sender has settled. -/
inductive ReceiverSettleMode where
  | first
  | second
deriving DecidableEq, Repr

namespace ReceiverSettleMode

/-- The number of a mode. -/
def code : ReceiverSettleMode → UInt8
  | first => 0
  | second => 1

/-- The name of a mode. -/
def name : ReceiverSettleMode → String
  | first => "First"
  | second => "Second"

/-- The mode with a given number. -/
def ofCode (code : UInt8) : Except Fault ReceiverSettleMode :=
  if code = 0 then .ok first
  else if code = 1 then .ok second
  else .error (.invalidValue (.receiverSettleMode code))

theorem ofCode_code (m : ReceiverSettleMode) : ofCode m.code = .ok m := by cases m <;> rfl

end ReceiverSettleMode

end Amqp
