import Amqp.Link
import Mathlib.Tactic.SplitIfs

/-!
# What a grant leaves to a sending end

A flow of the receiver grants credit from its own count on, and the sending end may have counted
deliveries that the receiver has not seen yet (`Sender.unseen`).  It deducts them from the grant.
The counts wrap around, so the end reads the rest as a signed number: it takes a rest of
`0x80000000` or more for a limit that it has passed, and is left with nothing (`Sender.left`).
-/

namespace Amqp.Link.Sender

/-- The deliveries that this end has counted and the receiver of a flow has not. -/
def unseen (f : Flow) (s : Sender) : UInt32 :=
  s.endpoint.deliveryCount - f.deliveryCount.getD s.endpoint.deliveryCount

/-- The credit that a grant leaves to an end, unless it is too large to be told from a limit that
has been passed. -/
def left (credit unseen : UInt32) : Nat :=
  if credit.toNat - unseen.toNat < 0x80000000 then credit.toNat - unseen.toNat else 0

theorem left_of_lt {credit unseen : UInt32} (h : credit.toNat - unseen.toNat < 0x80000000) :
    left credit unseen = credit.toNat - unseen.toNat := if_pos h

theorem left_eq_iff (credit unseen : UInt32) :
    left credit unseen = credit.toNat - unseen.toNat ↔
      credit.toNat - unseen.toNat < 0x80000000 := by
  unfold left
  split_ifs with h <;> omega

theorem left_lt (credit unseen : UInt32) : left credit unseen < 0x80000000 := by
  unfold left
  split_ifs with h
  · exact h
  · decide

/-- An end that has counted no more than `0x7FFFFFFF` deliveries beyond those of the receiver
deducts them from the grant. -/
theorem toNat_remainingCredit_of_lt {receiverCount deliveryCount : UInt32}
    (h : (deliveryCount - receiverCount).toNat < 0x80000000) (credit : UInt32) :
    (remainingCredit receiverCount credit deliveryCount).toNat =
      left credit (deliveryCount - receiverCount) := by
  have hunseen := UInt32.toNat_sub deliveryCount receiverCount
  have hrest := UInt32.toNat_sub (receiverCount + credit) deliveryCount
  rw [UInt32.toNat_add] at hrest
  have hcredit := credit.toNat_lt
  have hreceiver := receiverCount.toNat_lt
  have hdelivery := deliveryCount.toNat_lt
  have hhalf : (0x80000000 : UInt32).toNat = 0x80000000 := rfl
  have hzero : (0 : UInt32).toNat = 0 := rfl
  unfold remainingCredit left
  dsimp only
  split_ifs with hroom hsmall hsmall
  all_goals
    rw [UInt32.lt_iff_toNat_lt, hhalf] at hroom
    omega

/-- The end with the rest of a grant as its credit. -/
def credited (rest : Nat) (s : Sender) : Sender :=
  { s with endpoint := { s.endpoint with linkCredit := UInt32.ofNat rest } }

/-- The end after it has used up the rest of a grant without sending. -/
def drained (rest : Nat) (s : Sender) : Sender :=
  let e := s.endpoint
  { s with
    endpoint := { e with deliveryCount := e.deliveryCount + UInt32.ofNat rest, linkCredit := 0 } }

theorem drained_zero (s : Sender) : s.drained 0 = s.credited 0 := by
  have hcount : s.endpoint.deliveryCount + UInt32.ofNat 0 = s.endpoint.deliveryCount :=
    UInt32.add_zero _
  unfold drained
  dsimp only
  rw [hcount]
  rfl

/-- Upon a flow with a grant, the rest of it is the credit of the end, whatever it was before.  If
the flow drains, the end counts the rest as used instead, and reports that if it is anything.  The
rest comes to the grant less the deliveries unseen exactly if that is below `0x80000000`. -/
theorem onFlow_of_grant {f : Flow} {credit : UInt32} {s : Sender}
    (hcredit : f.linkCredit = some credit) (hunseen : (s.unseen f).toNat < 0x80000000) :
    let rest := left credit (s.unseen f)
    (rest = credit.toNat - (s.unseen f).toNat ↔
      credit.toNat - (s.unseen f).toNat < 0x80000000) ∧
    s.onFlow f =
      if f.drain then
        (s.drained rest,
          if rest ≠ 0 then [.flow { (s.drained rest).endpoint.toFlow with drain := true }]
          else if f.echo then [.flow (s.drained rest).endpoint.toFlow] else [])
      else
        (s.credited rest, if f.echo then [.flow (s.credited rest).endpoint.toFlow] else []) := by
  intro rest
  refine ⟨left_eq_iff _ _, ?_⟩
  have hlt : rest < UInt32.size := Nat.lt_trans (left_lt _ _) (by decide)
  have hrest : remainingCredit (f.deliveryCount.getD s.endpoint.deliveryCount) credit
      s.endpoint.deliveryCount = UInt32.ofNat rest := by
    rw [← UInt32.toNat_inj, toNat_remainingCredit_of_lt hunseen, UInt32.toNat_ofNat_of_lt' hlt]
    rfl
  unfold onFlow
  rw [hcredit]
  dsimp only
  rw [hrest]
  cases f.drain with
  | false => rfl
  | true =>
    by_cases hnone : rest = 0
    · rw [hnone, if_neg (by decide), if_pos rfl, drained_zero]
      rfl
    · have hsome : (UInt32.ofNat rest != 0) = true := by
        rw [bne_iff_ne, Ne, ← UInt32.toNat_inj, UInt32.toNat_ofNat_of_lt' hlt]
        exact hnone
      rw [hsome, if_pos (Bool.and_self true), if_pos rfl, if_pos hnone]
      rfl

/-- An attached end that has sent three deliveries across the wrap of its count. -/
def countedPastZero : Sender where
  endpoint :=
    { name := "x", handle := 0, role := .sender, state := .attached, deliveryCount := 1,
      senderSettleMode := .mixed, receiverSettleMode := .first }

/-- A grant from before those three deliveries. -/
def grantBeforeZero : Flow where
  handle := some 0
  deliveryCount := some 0xFFFFFFFE
  linkCredit := some 10

/-- Seven are left of ten, and a flow that drains uses them up. -/
theorem onFlow_of_grantBeforeZero :
    (countedPastZero.unseen grantBeforeZero).toNat = 3 ∧
    countedPastZero.onFlow grantBeforeZero = (countedPastZero.credited 7, []) ∧
    (countedPastZero.onFlow { grantBeforeZero with drain := true }).1 =
      countedPastZero.drained 7 := by
  have hlt : (countedPastZero.unseen grantBeforeZero).toNat < 0x80000000 := by decide
  have hcredit : grantBeforeZero.linkCredit = some 10 := rfl
  have hdrained := @onFlow_of_grant { grantBeforeZero with drain := true } _ _ hcredit hlt
  exact ⟨rfl, (onFlow_of_grant hcredit hlt).2, congrArg Prod.fst hdrained.2⟩

/-- An end that has no deliveries unseen is left with nothing of a grant of `0x80000000`. -/
theorem onFlow_of_grantTooLarge :
    let f : Flow := { handle := some 0, linkCredit := some 0x80000000 }
    (countedPastZero.unseen f).toNat = 0 ∧
      countedPastZero.onFlow f = (countedPastZero.credited 0, []) :=
  ⟨rfl, rfl⟩

end Amqp.Link.Sender
