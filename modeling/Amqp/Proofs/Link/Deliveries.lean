import Amqp.Proofs.Link.Transfers

/-!
# Deliveries at the ends of a link

What an attached link end does to the deliveries that pass it, apart from its counts of deliveries
and credit (`still` leaves those out):

* a sending end drafts a transfer, books the delivery under its id and concludes it when the
  receiver accepts it (`Sender.accept`);
* a receiving end extends the message in progress by each transfer, and with the last one queues it
  (`Receiver.onTransfer_more`, `Receiver.onTransfer_last`);
* flows that neither drain nor ask for an echo change nothing else and get no answer.

`Assembles` tells which deliveries a receiving end puts together from transfers.
-/

namespace Amqp

/-- A disposition without a last id covers its first id only. -/
theorem Disposition.covers_of_last_none {d : Disposition} (h : d.last = none) (id : UInt32) :
    d.covers id = decide (id = d.first) := by
  have hself : d.first - d.first = 0 := UInt32.sub_self _
  unfold covers
  rw [h, Option.getD_none, hself, decide_eq_decide, UInt32.le_iff_toNat_le]
  constructor
  · intro hle
    have hzero : id - d.first = 0 := UInt32.toNat_inj.1 (Nat.le_zero.1 hle)
    exact (UInt32.sub_eq_iff_eq_add.1 hzero).trans (UInt32.zero_add _)
  · rintro rfl
    exact Nat.le_of_eq (congrArg UInt32.toNat hself)

end Amqp

namespace Amqp.Link

/-! ## Link ends without their counts -/

/-- The endpoint without its counts of deliveries and credit. -/
def Endpoint.still (e : Endpoint) : Endpoint := { e with deliveryCount := 0, linkCredit := 0 }

/-- The sending end without its counts. -/
def Sender.still (s : Sender) : Sender := { s with endpoint := s.endpoint.still, nextTag := 0 }

/-- The receiving end without its counts and without the ids that its application is to settle. -/
def Receiver.still (r : Receiver) : Receiver :=
  { r with endpoint := r.endpoint.still, unsettled := [] }

/-- A link end without its counts. -/
def still : Link → Link
  | sender s => sender s.still
  | receiver r => receiver r.still

/-! ## Deliveries -/

/-- What both ends of a link know of a delivery. -/
structure Delivery where
  id : UInt32
  payload : Bytes
  settled : Bool
deriving DecidableEq

/-- The id and the payload of a delivery. -/
def Delivery.content (d : Delivery) : UInt32 × Bytes := (d.id, d.payload)

namespace Message

/-- The delivery that a message is. -/
def delivery (m : Message) : Delivery := ⟨m.deliveryId, m.payload, m.settled⟩

/-- The id and the payload of a message. -/
def content (m : Message) : UInt32 × Bytes := (m.deliveryId, m.payload)

end Message

/-! ## Assembling transfers -/

/-- `Assembles limit part ts out`: a receiving end that has received `part` of a message puts
exactly the deliveries `out` together from the transfers `ts`, none of them over the limit, and then
has no part of another. -/
inductive Assembles (limit : Option UInt64) :
    Option Message → List Transfer → List Delivery → Prop
  | done : Assembles limit none [] []
  | more {part : Option Message} {t : Transfer} {m : Message} {ts : List Transfer}
      {out : List Delivery} (hpart : part.or (Message.start t) = some m)
      (hkept : t.aborted = false) (hmore : t.more = true)
      (hsize : Within limit (m.extend t).payload.length)
      (hrest : Assembles limit (some (m.extend t)) ts out) : Assembles limit part (t :: ts) out
  | last {part : Option Message} {t : Transfer} {m : Message} {ts : List Transfer}
      {out : List Delivery} (hpart : part.or (Message.start t) = some m)
      (hkept : t.aborted = false) (hmore : t.more = false)
      (hsize : Within limit (m.extend t).payload.length) (hrest : Assembles limit none ts out) :
      Assembles limit part (t :: ts) ((m.extend t).delivery :: out)

theorem Assembles.append {limit : Option UInt64} {part : Option Message} {ts us : List Transfer}
    {out out' : List Delivery} (h : Assembles limit part ts out)
    (h' : Assembles limit none us out') : Assembles limit part (ts ++ us) (out ++ out') := by
  induction h with
  | done => exact h'
  | more hpart hkept hmore hsize _ ih => exact .more hpart hkept hmore hsize ih
  | last hpart hkept hmore hsize _ ih => exact .last hpart hkept hmore hsize ih

theorem Assembles.of_nil {limit : Option UInt64} {part : Option Message} {out : List Delivery}
    (h : Assembles limit part [] out) : part = none ∧ out = [] := by
  cases h
  exact ⟨rfl, rfl⟩

/-! ## Receiving ends -/

/-- The disposition by which a receiver accepts a delivery. -/
def acceptance (deliveryId : UInt32) : Disposition :=
  { role := .receiver, first := deliveryId, settled := true, state := some .accepted }

/-- Whether outputs are flows with the counts of an end, and nothing else. -/
def IsGrants (handle : UInt32) (outputs : List Output) : Prop :=
  ∀ o ∈ outputs, ∃ e : Endpoint, e.handle = handle ∧ o = .flow e.toFlow

namespace Receiver

theorem refill_spec (r : Receiver) :
    r.refill.1.still = r.still ∧ IsGrants r.endpoint.handle r.refill.2 := by
  unfold refill
  split
  · refine ⟨rfl, fun o ho => ?_⟩
    rw [List.mem_singleton] at ho
    exact ⟨{ r.endpoint with linkCredit := r.prefetch }, rfl, ho⟩
  · exact ⟨rfl, by simp [IsGrants]⟩

theorem grant_spec {credit : UInt32} {r r' : Receiver} {outputs : List Output}
    (h : r.grant credit = .ok (r', outputs)) :
    r'.still = r.still ∧ IsGrants r.endpoint.handle outputs := by
  unfold grant at h
  split at h
  · cases h
  · cases h
    refine ⟨rfl, fun o ho => ?_⟩
    rw [List.mem_singleton] at ho
    exact ⟨{ r.endpoint with linkCredit := credit }, rfl, ho⟩

theorem still_opened (r : Receiver) : r.opened.still = { r.still with inProgress := none } := by
  unfold opened still
  dsimp only
  split_ifs <;> rfl

/-- A complete message goes behind the messages received so far.  It is accepted if neither its
sender has settled it nor the application is to settle it. -/
theorem queue_spec (m : Message) (r : Receiver) :
    ∃ r' settled, r.queue m =
        (r', if m.settled = false ∧ r.autoAccept = true then
          [Output.disposition (acceptance m.deliveryId)] else []) ∧
      r'.still = { r.still with received := r.received ++ [{ m with settled }] } := by
  unfold queue
  by_cases hsettled : m.settled = true
  · rw [if_pos hsettled, if_neg (by simp [hsettled])]
    exact ⟨_, m.settled, rfl, rfl⟩
  rw [if_neg hsettled]
  by_cases haccept : r.autoAccept = true
  · rw [if_pos haccept, if_pos ⟨by simpa using hsettled, haccept⟩]
    exact ⟨_, true, rfl, rfl⟩
  · rw [if_neg haccept, if_neg fun h => haccept h.2]
    exact ⟨_, m.settled, rfl, rfl⟩

/-- A transfer that announces more becomes a part of the message in progress. -/
theorem onTransfer_more {t : Transfer} {r : Receiver} {m : Message}
    (hstate : r.endpoint.state = .attached) (hpart : r.inProgress.or (Message.start t) = some m)
    (hkept : t.aborted = false)
    (hsize : Within r.endpoint.maxMessageSize (m.extend t).payload.length) (hmore : t.more = true) :
    ∃ r' grants, r.onTransfer t = .ok (r', grants) ∧ IsGrants r.endpoint.handle grants ∧
      r'.still = { r.still with inProgress := some (m.extend t) } := by
  have heq := onTransfer_of_more (not_isDetaching hstate) hpart hkept (exceedsLimit_eq_none hsize)
    hmore
  obtain ⟨hrefill, hgrants⟩ := refill_spec { r.opened with inProgress := some (m.extend t) }
  refine ⟨_, _, heq, ?_, hrefill.trans ?_⟩
  · rw [← handle_opened r]
    exact hgrants
  · change { r.opened.still with inProgress := some (m.extend t) } = _
    rw [still_opened]

/-- The last transfer of a delivery completes the message, which is queued.  An end that accepts by
itself settles it if its sender has not. -/
theorem onTransfer_last {t : Transfer} {r : Receiver} {m : Message}
    (hstate : r.endpoint.state = .attached) (hpart : r.inProgress.or (Message.start t) = some m)
    (hkept : t.aborted = false)
    (hsize : Within r.endpoint.maxMessageSize (m.extend t).payload.length)
    (hmore : t.more = false) :
    ∃ r' settled grants, r.onTransfer t = .ok
        (r', (if (m.extend t).settled = false ∧ r.autoAccept = true then
          [Output.disposition (acceptance m.deliveryId)] else []) ++ grants) ∧
      IsGrants r.endpoint.handle grants ∧
      r'.still =
        { r.still with
          inProgress := none, received := r.received ++ [{ m.extend t with settled }] } := by
  have heq := onTransfer_of_last (not_isDetaching hstate) hpart hkept (exceedsLimit_eq_none hsize)
    hmore
  obtain ⟨r₂, settled, hr₂, hstill₂⟩ := queue_spec (m.extend t) r.opened
  rw [hr₂] at heq
  obtain ⟨hrefill, hgrants⟩ := refill_spec r₂
  have hhandle : r₂.endpoint.handle = r.endpoint.handle := by
    change r₂.still.endpoint.handle = _
    rw [hstill₂]
    exact handle_opened r
  refine ⟨_, settled, _, heq, ?_, hrefill.trans (hstill₂.trans ?_)⟩
  · rw [← hhandle]
    exact hgrants
  · rw [still_opened]
    rfl

/-- A flow without echo only concerns the counts of a receiving end. -/
theorem onFlow_spec {flow : Flow} (hecho : flow.echo = false) (r : Receiver) :
    (r.onFlow flow).1.still = r.still ∧ (r.onFlow flow).2 = [] := by
  unfold onFlow
  refine ⟨?_, by simp [hecho]⟩
  cases flow.deliveryCount with
  | none => rfl
  | some count =>
    dsimp only
    split_ifs <;> rfl

/-- A disposition of a receiver does not concern receiving ends. -/
theorem onDisposition_acceptance (deliveryId : UInt32) (r : Receiver) :
    r.onDisposition (acceptance deliveryId) = r := by
  unfold onDisposition
  exact if_neg fun h => by cases h.1

end Receiver

/-! ## Sending ends -/

namespace Sender

/-- The transfer that a sending end drafts, under a delivery tag of its own. -/
def drafted (handle : UInt32) (tag : UInt64) (payload : Bytes) (settled : Bool) : Transfer :=
  { handle, deliveryTag := some (Word.encode 8 tag.toNat), messageFormat := some 0,
    settled := some settled, payload }

/-- A draft has the given payload and flag, and is within the limit that the receiver told. -/
theorem draft_spec {payload : Bytes} {settled : Bool} {s s' : Sender} {t : Transfer}
    (h : s.draft payload settled = .ok (some t, s')) :
    t = drafted s.endpoint.handle s.nextTag payload settled ∧ s'.still = s.still ∧
      Within s.endpoint.remoteMaxMessageSize payload.length := by
  unfold draft at h
  by_cases hstate : s.endpoint.state ≠ .attached
  · rw [if_pos hstate] at h
    cases h
  rw [if_neg hstate] at h
  have hdone : (if s.endpoint.linkCredit = 0 then Except.ok (none, s)
        else Except.ok (some (drafted s.endpoint.handle s.nextTag payload settled),
          { s with nextTag := s.nextTag + 1 }) : Except Fault _) = .ok (some t, s') →
      t = drafted s.endpoint.handle s.nextTag payload settled ∧ s'.still = s.still := by
    intro hok
    split_ifs at hok
    · cases hok
    · cases hok
      exact ⟨rfl, rfl⟩
  cases hlimit : s.endpoint.remoteMaxMessageSize with
  | none =>
    rw [hlimit] at h
    obtain ⟨ht, hstill⟩ := hdone h
    exact ⟨ht, hstill, fun l hl => by cases hl⟩
  | some l =>
    rw [hlimit] at h
    by_cases hover : 0 < l ∧ l.toNat < payload.length
    · simp only [hover, and_self, if_true] at h
      cases h
    · simp only [hover, if_false] at h
      obtain ⟨ht, hstill⟩ := hdone h
      refine ⟨ht, hstill, fun l' hl' hpos => ?_⟩
      cases hl'
      exact Nat.le_of_not_lt fun hlt => hover ⟨hpos, hlt⟩

/-- An attached end drafts a transfer if it has credit, and then counts a tag. -/
theorem draft_cases {payload : Bytes} {settled : Bool} {s s' : Sender} {t : Option Transfer}
    (h : s.draft payload settled = .ok (t, s')) :
    t = none ∧ s' = s ∨ s.endpoint.linkCredit ≠ 0 ∧
      t = some (drafted s.endpoint.handle s.nextTag payload settled) ∧
      s' = { s with nextTag := s.nextTag + 1 } := by
  have hdone : (if s.endpoint.linkCredit = 0 then Except.ok (none, s)
        else Except.ok (some (drafted s.endpoint.handle s.nextTag payload settled),
          { s with nextTag := s.nextTag + 1 }) : Except Fault _) = .ok (t, s') →
      t = none ∧ s' = s ∨ s.endpoint.linkCredit ≠ 0 ∧
        t = some (drafted s.endpoint.handle s.nextTag payload settled) ∧
        s' = { s with nextTag := s.nextTag + 1 } := by
    intro hok
    split_ifs at hok with hcredit
    · cases hok
      exact Or.inl ⟨rfl, rfl⟩
    · cases hok
      exact Or.inr ⟨hcredit, rfl, rfl⟩
  unfold draft at h
  by_cases hstate : s.endpoint.state ≠ .attached
  · rw [if_pos hstate] at h
    cases h
  rw [if_neg hstate] at h
  cases hlimit : s.endpoint.remoteMaxMessageSize with
  | none =>
    rw [hlimit] at h
    exact hdone h
  | some l =>
    rw [hlimit] at h
    by_cases hover : 0 < l ∧ l.toNat < payload.length
    · simp only [hover, and_self, if_true] at h
      cases h
    · simp only [hover, if_false] at h
      exact hdone h

/-- The end after it has sent a delivery.  What is sent settled leaves no trace. -/
def expect (deliveryId : UInt32) (settled : Bool) (pending : Pending) (s : Sender) : Sender :=
  if settled then s else { s with unsettled := s.unsettled.insert deliveryId pending }

@[simp] theorem endpoint_expect (deliveryId : UInt32) (settled : Bool) (pending : Pending)
    (s : Sender) : (s.expect deliveryId settled pending).endpoint = s.endpoint := by
  cases settled <;> rfl

@[simp] theorem sendTimeout_expect (deliveryId : UInt32) (settled : Bool) (pending : Pending)
    (s : Sender) : (s.expect deliveryId settled pending).sendTimeout = s.sendTimeout := by
  cases settled <;> rfl

@[simp] theorem outcomes_expect (deliveryId : UInt32) (settled : Bool) (pending : Pending)
    (s : Sender) : (s.expect deliveryId settled pending).outcomes = s.outcomes := by
  cases settled <;> rfl

/-- What is sent unsettled is waited for, besides what was. -/
theorem contains_expect (deliveryId : UInt32) (settled : Bool) (pending : Pending) (s : Sender)
    (id : UInt32) : (s.expect deliveryId settled pending).unsettled.contains id =
      (s.unsettled.contains id || !settled && decide (id = deliveryId)) := by
  cases settled with
  | true => simp [expect]
  | false =>
    change (s.unsettled.insert deliveryId pending).contains id = _
    rw [Table.contains_eq_isSome, Table.contains_eq_isSome, Table.get?_insert]
    by_cases h : id = deliveryId <;> simp [h]

theorem book_spec (deliveryId : UInt32) (handle : UInt32) (tag : UInt64) (payload : Bytes)
    (settled : Bool) (now : Nat) (s : Sender) :
    ∃ pending, (s.book deliveryId (drafted handle tag payload settled) now).still =
      s.still.expect deliveryId settled pending := by
  refine ⟨⟨Word.encode 8 tag.toNat, now⟩, ?_⟩
  cases settled <;> rfl

/-- The end after the receiver has accepted a delivery.  One that is not waited for is passed
over. -/
def accept (deliveryId : UInt32) (s : Sender) : Sender :=
  if s.unsettled.contains deliveryId then
    { s with
      unsettled := s.unsettled.erase deliveryId
      outcomes := s.outcomes.insert deliveryId (.settled (some .accepted)) }
  else s

theorem covers_acceptance (deliveryId id : UInt32) :
    (acceptance deliveryId).covers id = decide (id = deliveryId) :=
  Disposition.covers_of_last_none rfl id

theorem filter_covers_acceptance (deliveryId : UInt32) (s : Sender) :
    s.unsettled.keys.filter (acceptance deliveryId).covers =
      if s.unsettled.contains deliveryId then [deliveryId] else [] := by
  have hcovers : (acceptance deliveryId).covers = (· = deliveryId) :=
    funext (covers_acceptance deliveryId)
  have hmem : s.unsettled.contains deliveryId = true ↔ deliveryId ∈ s.unsettled.keys := by
    rw [Table.contains_eq_isSome, Option.isSome_iff_ne_none, Ne, Table.get?_eq_none_iff,
      Decidable.not_not]
  have hcount : s.unsettled.keys.count deliveryId =
      if deliveryId ∈ s.unsettled.keys then 1 else 0 :=
    List.Nodup.count s.unsettled.keys_nodup
  rw [hcovers, List.filter_eq, hcount]
  by_cases h : s.unsettled.contains deliveryId = true
  · rw [if_pos h, if_pos (hmem.1 h)]
    rfl
  · rw [if_neg h, if_neg fun hin => h (hmem.2 hin)]
    rfl

theorem onDisposition_acceptance (deliveryId : UInt32) (s : Sender) :
    s.onDisposition (acceptance deliveryId) = (s.accept deliveryId, []) := by
  unfold onDisposition accept
  rw [filter_covers_acceptance]
  by_cases h : s.unsettled.contains deliveryId = true
  · simp only [h, if_true]
    rfl
  · simp only [h]
    rfl

@[simp] theorem endpoint_accept (deliveryId : UInt32) (s : Sender) :
    (s.accept deliveryId).endpoint = s.endpoint := by
  unfold accept
  split_ifs <;> rfl

@[simp] theorem sendTimeout_accept (deliveryId : UInt32) (s : Sender) :
    (s.accept deliveryId).sendTimeout = s.sendTimeout := by
  unfold accept
  split_ifs <;> rfl

theorem contains_accept (deliveryId : UInt32) (s : Sender) (id : UInt32) :
    (s.accept deliveryId).unsettled.contains id =
      (s.unsettled.contains id && decide (id ≠ deliveryId)) := by
  unfold accept
  split_ifs with h
  · change (s.unsettled.erase deliveryId).contains id = _
    rw [Table.contains_eq_isSome, Table.contains_eq_isSome, Table.get?_erase]
    by_cases hid : id = deliveryId <;> simp [hid]
  · by_cases hid : id = deliveryId
    · subst hid
      simpa using h
    · simp [hid]

theorem outcomes_accept (deliveryId : UInt32) (s : Sender) (id : UInt32) :
    (s.accept deliveryId).outcomes.get? id =
      if id = deliveryId ∧ s.unsettled.contains id = true then some (.settled (some .accepted))
      else s.outcomes.get? id := by
  unfold accept
  split_ifs with h hid hid
  · exact (Table.get?_insert _ _ _ _).trans (if_pos hid.1)
  · have hne : id ≠ deliveryId := fun heq => hid ⟨heq, heq ▸ h⟩
    exact (Table.get?_insert _ _ _ _).trans (if_neg hne)
  · exact absurd (hid.1 ▸ hid.2) h
  · rfl

theorem accept_accept (deliveryId : UInt32) (s : Sender) :
    (s.accept deliveryId).accept deliveryId = s.accept deliveryId := by
  have habsent : (s.accept deliveryId).unsettled.contains deliveryId = false := by
    simp [contains_accept]
  rw [accept, habsent]
  rfl

theorem still_accept (deliveryId : UInt32) (s : Sender) :
    (s.accept deliveryId).still = s.still.accept deliveryId := by
  unfold accept
  change _ = if s.unsettled.contains deliveryId then _ else _
  split_ifs <;> rfl

/-- A flow that neither drains nor asks for an echo only concerns the counts of a sending end. -/
theorem onFlow_spec {flow : Flow} (hdrain : flow.drain = false) (hecho : flow.echo = false)
    (s : Sender) : (s.onFlow flow).1.still = s.still ∧ (s.onFlow flow).2 = [] := by
  unfold onFlow
  rw [hdrain, hecho]
  refine ⟨?_, rfl⟩
  cases flow.linkCredit <;> rfl

theorem evaluate_of_sendTimeout {s : Sender} (h : s.sendTimeout = none) (now : Nat) :
    s.evaluate now = s := by
  unfold evaluate
  rw [h]

end Sender

end Amqp.Link
