import Amqp.Frame

/-!
# Splitting transfers

A transfer whose frame is too large is cut into several.  The first one has all its fields; the
others carry the handle and a piece of the payload.  All but the last announce more.
-/

namespace Amqp

/-- Pieces of a given size, the last one possibly shorter.  `fuel` bounds their number. -/
def Bytes.pieces (size : Nat) : (fuel : Nat) → Bytes → List Bytes
  | 0, _ => []
  | fuel + 1, b => if b.isEmpty then [] else b.take size :: pieces size fuel (b.drop size)

namespace Transfer

/-- The transfers that carry on with a delivery; the last one announces more only if `more` is
set. -/
def continuations (handle : UInt32) (more : Bool) : List Bytes → List Transfer
  | [] => []
  | [piece] => [{ handle, more, payload := piece }]
  | piece :: rest =>
    { handle, more := true, payload := piece } :: continuations handle more rest

/-- The size of the frame of a transfer without its payload, with the longest delivery id. -/
def overhead (t : Transfer) : Nat :=
  Frame.size
    (.transfer { t with deliveryId := some 4294967295, more := true, payload := [] })

/-- The transfers that carry a delivery in frames of at most `maxFrameSize` octets. -/
def split (t : Transfer) (maxFrameSize : UInt32) : Except Fault (List Transfer) :=
  let overhead := t.overhead
  if maxFrameSize.toNat ≤ overhead then
    .error (.invalidValue (.transferHeaderTooLong overhead maxFrameSize.toNat))
  else
    let capacity := maxFrameSize.toNat - overhead
    if t.payload.length ≤ capacity then .ok [t]
    else
      let rest := t.payload.drop capacity
      .ok
        ({ t with more := true, payload := t.payload.take capacity } ::
          continuations t.handle t.more (Bytes.pieces capacity rest.length rest))

end Transfer

end Amqp
