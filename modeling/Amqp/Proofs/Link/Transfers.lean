import Amqp.Link
import Mathlib.Tactic.SplitIfs

/-!
# A transfer at a receiving end

A transfer belongs to the delivery in progress, or else starts one (`Message.start`), which counts.
The equations `Receiver.onTransfer_of_*` tell what a receiving end then does with it; `Takes` has
all outcomes as its cases, for proofs that go through them.
-/

namespace Amqp.Link

namespace Message

/-- The message that a transfer begins, still without payload. -/
def start (t : Transfer) : Option Message :=
  t.deliveryId.map fun deliveryId =>
    { deliveryId, deliveryTag := t.deliveryTag, settled := t.settled.getD false, payload := [] }

/-- The message with the part that a transfer carries. -/
def extend (t : Transfer) (m : Message) : Message :=
  { m with settled := m.settled || t.settled == some true, payload := m.payload ++ t.payload }

end Message

/-- A count that goes down by one and stops at zero. -/
theorem toNat_countDown (n : UInt32) : (if n = 0 then 0 else n - 1).toNat = n.toNat - 1 := by
  split_ifs with h
  · rw [h]
    rfl
  · have hpos : n.toNat ≠ 0 := fun hzero => h (UInt32.toNat_inj.1 hzero)
    have hle : 1 ≤ n := UInt32.le_iff_toNat_le.2 (Nat.pos_of_ne_zero hpos)
    exact UInt32.toNat_sub_of_le _ _ hle

/-- The end with a delivery counted and the credit for it used up. -/
def Endpoint.count (e : Endpoint) : Endpoint :=
  { e with
    deliveryCount := e.deliveryCount + 1
    linkCredit := if e.linkCredit = 0 then 0 else e.linkCredit - 1 }

/-- Whether a message of a given size is within a limit.  Zero stands for no limit. -/
def Within (limit : Option UInt64) (size : Nat) : Prop :=
  ∀ l, limit = some l → 0 < l → size ≤ l.toNat

theorem Within.mono {limit : Option UInt64} {m n : Nat} (h : Within limit n) (hle : m ≤ n) :
    Within limit m :=
  fun l hl hpos => Nat.le_trans hle (h l hl hpos)

namespace Receiver

/-- Whether this end has asked to detach and drops transfers. -/
def IsDetaching (r : Receiver) : Prop := r.endpoint.state = .detachSent ∨ r.endpoint.state = .error

theorem not_isDetaching {r : Receiver} (h : r.endpoint.state = .attached) : ¬ r.IsDetaching := by
  unfold IsDetaching
  rw [h]
  exact fun h => h.elim (by simp) (by simp)

/-- The end after it has taken out the delivery in progress, or has counted a new one. -/
def opened (r : Receiver) : Receiver :=
  { r with
    inProgress := none
    endpoint := if r.inProgress.isSome then r.endpoint else r.endpoint.count }

theorem opened_of_none {r : Receiver} (h : r.inProgress = none) :
    r.opened = { r with endpoint := r.endpoint.count } := by
  unfold opened
  rw [h]
  rfl

theorem handle_opened (r : Receiver) : r.opened.endpoint.handle = r.endpoint.handle := by
  unfold opened
  dsimp only
  split_ifs <;> rfl

theorem delivery_of_none {t : Transfer} {r : Receiver}
    (h : r.inProgress.or (Message.start t) = none) :
    r.delivery t = .error (.malformed (.missingDeliveryId r.endpoint.name)) := by
  obtain ⟨hpart, hstart⟩ := Option.or_eq_none_iff.1 h
  unfold delivery
  rw [hpart, Option.map_eq_none_iff.1 hstart]

theorem delivery_of_some {t : Transfer} {r : Receiver} {m : Message}
    (h : r.inProgress.or (Message.start t) = some m) : r.delivery t = .ok (m, r.opened) := by
  unfold delivery
  cases hpart : r.inProgress with
  | some part =>
    rw [hpart] at h
    cases h
    unfold opened
    rw [hpart]
    rfl
  | none =>
    rw [hpart] at h
    obtain ⟨id, hid, rfl⟩ := Option.map_eq_some_iff.1 h
    rw [hid, opened_of_none hpart, hpart]
    rfl

theorem exceedsLimit_opened (size : Nat) (r : Receiver) :
    r.opened.exceedsLimit size = r.exceedsLimit size := by
  unfold exceedsLimit opened
  dsimp only
  split_ifs <;> rfl

theorem exceedsLimit_eq_none {r : Receiver} {size : Nat}
    (h : Within r.endpoint.maxMessageSize size) : r.exceedsLimit size = none := by
  unfold exceedsLimit
  rw [Option.filter_eq_none_iff]
  intro l hl hover
  rw [Bool.and_eq_true, decide_eq_true_eq, decide_eq_true_eq] at hover
  have := h l hl hover.1
  omega

/-! ## What becomes of a transfer -/

variable {t : Transfer} {r : Receiver} {m : Message}

theorem onTransfer_of_isDetaching (h : r.IsDetaching) : r.onTransfer t = .ok (r, []) := by
  unfold IsDetaching at h
  unfold onTransfer
  rw [if_pos h]
  rfl

theorem onTransfer_of_none (hstate : ¬ r.IsDetaching)
    (hnone : r.inProgress.or (Message.start t) = none) :
    r.onTransfer t = .error (.malformed (.missingDeliveryId r.endpoint.name)) := by
  unfold IsDetaching at hstate
  unfold onTransfer
  rw [if_neg hstate, delivery_of_none hnone]
  rfl

theorem onTransfer_of_aborted (hstate : ¬ r.IsDetaching)
    (hpart : r.inProgress.or (Message.start t) = some m) (haborted : t.aborted = true) :
    r.onTransfer t = .ok r.opened.refill := by
  unfold IsDetaching at hstate
  unfold onTransfer
  rw [if_neg hstate, delivery_of_some hpart]
  exact if_pos haborted

/-- A message over the limit closes the link. -/
theorem onTransfer_of_exceeds {limit : UInt64} (hstate : ¬ r.IsDetaching)
    (hpart : r.inProgress.or (Message.start t) = some m) (hkept : t.aborted = false)
    (hover : r.exceedsLimit (m.extend t).payload.length = some limit) :
    r.onTransfer t =
      .ok ({ r.opened with
        endpoint := (r.opened.endpoint.detach true (some (sizeExceeded limit))).1 },
        (r.opened.endpoint.detach true (some (sizeExceeded limit))).2) := by
  have hover' : r.opened.exceedsLimit (m.payload ++ t.payload).length = some limit :=
    (exceedsLimit_opened _ _).trans hover
  unfold IsDetaching at hstate
  unfold onTransfer
  rw [if_neg hstate, delivery_of_some hpart]
  simp only [bind, Except.bind, hkept, hover']
  rfl

theorem onTransfer_of_more (hstate : ¬ r.IsDetaching)
    (hpart : r.inProgress.or (Message.start t) = some m) (hkept : t.aborted = false)
    (hsize : r.exceedsLimit (m.extend t).payload.length = none) (hmore : t.more = true) :
    r.onTransfer t = .ok (refill { r.opened with inProgress := some (m.extend t) }) := by
  have hsize' : r.opened.exceedsLimit (m.payload ++ t.payload).length = none :=
    (exceedsLimit_opened _ _).trans hsize
  unfold IsDetaching at hstate
  unfold onTransfer
  rw [if_neg hstate, delivery_of_some hpart]
  simp only [bind, Except.bind, hkept, hsize', hmore]
  rfl

theorem onTransfer_of_last (hstate : ¬ r.IsDetaching)
    (hpart : r.inProgress.or (Message.start t) = some m) (hkept : t.aborted = false)
    (hsize : r.exceedsLimit (m.extend t).payload.length = none) (hmore : t.more = false) :
    r.onTransfer t =
      .ok ((r.opened.queue (m.extend t)).1.refill.1,
        (r.opened.queue (m.extend t)).2 ++ (r.opened.queue (m.extend t)).1.refill.2) := by
  have hsize' : r.opened.exceedsLimit (m.payload ++ t.payload).length = none :=
    (exceedsLimit_opened _ _).trans hsize
  unfold IsDetaching at hstate
  unfold onTransfer
  rw [if_neg hstate, delivery_of_some hpart]
  simp only [bind, Except.bind, hkept, hsize', hmore]
  rfl

/-- What a receiving end can make of a transfer. -/
inductive Takes (t : Transfer) (r : Receiver) : Except Fault (Receiver × List Output) → Prop
  | dropped (h : r.IsDetaching) : Takes t r (.ok (r, []))
  | refused (hstate : ¬ r.IsDetaching) (hnone : r.inProgress.or (Message.start t) = none) :
      Takes t r (.error (.malformed (.missingDeliveryId r.endpoint.name)))
  | aborted {m : Message} (hstate : ¬ r.IsDetaching)
      (hpart : r.inProgress.or (Message.start t) = some m) (haborted : t.aborted = true) :
      Takes t r (.ok r.opened.refill)
  | exceeding {m : Message} {limit : UInt64} (hstate : ¬ r.IsDetaching)
      (hpart : r.inProgress.or (Message.start t) = some m) (hkept : t.aborted = false)
      (hover : r.exceedsLimit (m.extend t).payload.length = some limit) :
      Takes t r (.ok ({ r.opened with
        endpoint := (r.opened.endpoint.detach true (some (sizeExceeded limit))).1 },
        (r.opened.endpoint.detach true (some (sizeExceeded limit))).2))
  | more {m : Message} (hstate : ¬ r.IsDetaching)
      (hpart : r.inProgress.or (Message.start t) = some m) (hkept : t.aborted = false)
      (hsize : r.exceedsLimit (m.extend t).payload.length = none) (hmore : t.more = true) :
      Takes t r (.ok (refill { r.opened with inProgress := some (m.extend t) }))
  | last {m : Message} (hstate : ¬ r.IsDetaching)
      (hpart : r.inProgress.or (Message.start t) = some m) (hkept : t.aborted = false)
      (hsize : r.exceedsLimit (m.extend t).payload.length = none) (hmore : t.more = false) :
      Takes t r (.ok ((r.opened.queue (m.extend t)).1.refill.1,
        (r.opened.queue (m.extend t)).2 ++ (r.opened.queue (m.extend t)).1.refill.2))

theorem takes_onTransfer (t : Transfer) (r : Receiver) : Takes t r (r.onTransfer t) := by
  by_cases hstate : r.IsDetaching
  · rw [onTransfer_of_isDetaching hstate]
    exact .dropped hstate
  cases hpart : r.inProgress.or (Message.start t) with
  | none =>
    rw [onTransfer_of_none hstate hpart]
    exact .refused hstate hpart
  | some m =>
    cases hkept : t.aborted with
    | true =>
      rw [onTransfer_of_aborted hstate hpart hkept]
      exact .aborted hstate hpart hkept
    | false =>
      cases hsize : r.exceedsLimit (m.extend t).payload.length with
      | some limit =>
        rw [onTransfer_of_exceeds hstate hpart hkept hsize]
        exact .exceeding hstate hpart hkept hsize
      | none =>
        cases hmore : t.more with
        | true =>
          rw [onTransfer_of_more hstate hpart hkept hsize hmore]
          exact .more hstate hpart hkept hsize hmore
        | false =>
          rw [onTransfer_of_last hstate hpart hkept hsize hmore]
          exact .last hstate hpart hkept hsize hmore

end Receiver

end Amqp.Link
