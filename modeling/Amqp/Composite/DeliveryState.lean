import Amqp.Composite.ErrorInfo

/-!
# Delivery states

The state of a delivery: how much of it has arrived, or the outcome that decides its fate.
-/

namespace Amqp

/-- The state of a delivery at one of its ends. -/
inductive DeliveryState where
  | received (sectionNumber : UInt32) (sectionOffset : UInt64)
  | accepted
  | rejected (error : Option ErrorInfo)
  | released
  | modified (deliveryFailed undeliverableHere : Bool) (messageAnnotations : Option Entries)

namespace DeliveryState

/-- Whether the state decides the fate of the delivery. -/
def isOutcome : DeliveryState → Bool
  | received _ _ => false
  | _ => true

/-- The state as a value. -/
def toValue : DeliveryState → Value
  | received sectionNumber sectionOffset =>
    composite Descriptor.received [.uint sectionNumber, .ulong sectionOffset]
  | accepted => composite Descriptor.accepted []
  | rejected error => composite Descriptor.rejected [.ofOption ErrorInfo.toValue error]
  | released => composite Descriptor.released []
  | modified deliveryFailed undeliverableHere messageAnnotations =>
    composite Descriptor.modified
      [.ofFlag deliveryFailed, .ofFlag undeliverableHere, .ofOption .map messageAnnotations]

/-- The fields of a received state. -/
def receivedFields : Fields DeliveryState := do
  let sectionNumber ← Fields.required "section_number" Fields.uint
  let sectionOffset ← Fields.optional "section_offset" Fields.ulong
  return received sectionNumber (sectionOffset.getD 0)

/-- The fields of a rejected state. -/
def rejectedFields : Fields DeliveryState := do
  return rejected (← Fields.nested ErrorInfo.ofValue)

/-- The fields of a modified state. -/
def modifiedFields : Fields DeliveryState := do
  let deliveryFailed ← Fields.flag "delivery_failed"
  let undeliverableHere ← Fields.flag "undeliverable_here"
  let messageAnnotations ← Fields.optional "message_annotations" Fields.map
  return modified deliveryFailed undeliverableHere messageAnnotations

/-- The state in a value. -/
def ofValue (v : Value) : Except Fault DeliveryState :=
  match v.descriptorCode? with
  | none => throw (.malformed (.undescribedDeliveryState v))
  | some code =>
    if code = Descriptor.received then readComposite "received" code receivedFields v
    else if code = Descriptor.accepted then readComposite "accepted" code (pure accepted) v
    else if code = Descriptor.rejected then readComposite "rejected" code rejectedFields v
    else if code = Descriptor.released then readComposite "released" code (pure released) v
    else if code = Descriptor.modified then readComposite "modified" code modifiedFields v
    else throw (.malformed (.unknownDeliveryState code))

end DeliveryState

end Amqp
