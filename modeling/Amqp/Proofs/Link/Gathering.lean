import Amqp.Proofs.Link.Transfers
import Mathlib.Data.List.Basic

/-!
# Which transfers a message is made of

A receiving end adds every transfer to the delivery in progress, whatever id the transfer has.
`Gathers` says which transfers the delivery in progress consists of.  So each message in the queue
is made of transfers of its own, in their order (`messages_of_takeEach`), and it has the id of all
of them as long as no transfer of another delivery intrudes.
-/

namespace Amqp.Link

/-! ## Messages made of transfers -/

namespace Message

/-- The message that transfers make up.  The first one has its id and its tag. -/
def ofParts : List Transfer → Option Message
  | [] => none
  | t :: ts => t.deliveryId.map fun deliveryId =>
    { deliveryId, deliveryTag := t.deliveryTag
      settled := (t :: ts).any (·.settled == some true)
      payload := (t :: ts).flatMap (·.payload) }

/-- The transfer that begins a delivery with the part of a message that has arrived. -/
def asTransfer (m : Message) : Transfer where
  deliveryId := some m.deliveryId
  deliveryTag := m.deliveryTag
  settled := some m.settled
  more := true
  payload := m.payload

/-- The message as it is queued.  An end that accepts by itself settles it. -/
def queuedBy (autoAccept : Bool) (m : Message) : Message :=
  { m with settled := m.settled || autoAccept }

/-- Whether all ids of transfers are the id of the message that they make up. -/
def IsPure (ts : List Transfer) : Prop :=
  ∀ m, ofParts ts = some m → ∀ t ∈ ts, ∀ x, t.deliveryId = some x → x = m.deliveryId

theorem ofParts_asTransfer (m : Message) : ofParts [m.asTransfer] = some m := by
  obtain ⟨deliveryId, deliveryTag, settled, payload⟩ := m
  simp [ofParts, asTransfer]

theorem ofParts_singleton (t : Transfer) : ofParts [t] = (start t).map (extend t) := by
  unfold start
  rw [Option.map_map]
  refine congrArg (Option.map · t.deliveryId) (funext fun deliveryId => ?_)
  rcases hsettled : t.settled with - | - | - <;> simp [extend, hsettled]

theorem ofParts_snoc {ts : List Transfer} {m : Message} (h : ofParts ts = some m) (t : Transfer) :
    ofParts (ts ++ [t]) = some (m.extend t) := by
  cases ts with
  | nil => cases h
  | cons u us =>
    obtain ⟨id, hid, rfl⟩ := Option.map_eq_some_iff.1 h
    simp [ofParts, hid, extend, Bool.or_assoc]

end Message

namespace Receiver

/-! ## The delivery in progress -/

/-- Whether the delivery in progress consists of some transfers. -/
structure Gathers (ts : List Transfer) (r : Receiver) : Prop where
  inProgress_eq : r.inProgress = Message.ofParts ts
  eq_nil : Message.ofParts ts = none → ts = []

/-- The transfer that stands for what the delivery in progress consists of. -/
def begun (r : Receiver) : List Transfer := r.inProgress.toList.map Message.asTransfer

variable {r r' : Receiver} {t : Transfer} {ts : List Transfer} {m : Message}

theorem gathers_nil (h : r.inProgress = none) : r.Gathers [] := ⟨h, fun _ => rfl⟩

theorem gathers_begun (r : Receiver) : r.Gathers r.begun := by
  unfold begun
  cases h : r.inProgress with
  | none => exact gathers_nil h
  | some m =>
    refine ⟨h.trans m.ofParts_asTransfer.symm, fun hnone => ?_⟩
    exact absurd (m.ofParts_asTransfer.symm.trans hnone) (by simp)

/-- The delivery that a transfer belongs to consists of the same transfers with it. -/
theorem Gathers.ofParts_snoc (h : r.Gathers ts)
    (hpart : r.inProgress.or (Message.start t) = some m) :
    Message.ofParts (ts ++ [t]) = some (m.extend t) := by
  rw [h.inProgress_eq] at hpart
  cases hts : Message.ofParts ts with
  | some part =>
    rw [hts] at hpart
    cases hpart
    exact Message.ofParts_snoc hts t
  | none =>
    rw [hts, Option.none_or] at hpart
    rw [h.eq_nil hts, List.nil_append, Message.ofParts_singleton, hpart]
    rfl

theorem gathers_of_some (hts : Message.ofParts ts = some m) (h : r.inProgress = some m) :
    r.Gathers ts :=
  ⟨h.trans hts.symm, fun hnone => by rw [hts] at hnone; cases hnone⟩

/-! ## One transfer -/

theorem refill_eq (r : Receiver) : ∃ credit,
    r.refill.1 = { r with endpoint := { r.endpoint with linkCredit := credit } } := by
  unfold refill
  split_ifs
  · exact ⟨r.prefetch, rfl⟩
  · exact ⟨r.endpoint.linkCredit, rfl⟩

theorem queue_eq (m : Message) (r : Receiver) : ∃ unsettled,
    (r.queue m).1 =
      { r with received := r.received ++ [m.queuedBy r.autoAccept], unsettled } := by
  obtain ⟨deliveryId, deliveryTag, settled, payload⟩ := m
  unfold queue Message.queuedBy
  cases settled with
  | true => exact ⟨r.unsettled, rfl⟩
  | false =>
    cases r.autoAccept with
    | true => exact ⟨r.unsettled, rfl⟩
    | false => exact ⟨_, rfl⟩

/-- The end after a transfer, which is passed over if it is refused. -/
def take (r : Receiver) (t : Transfer) : Receiver := (r.onTransfer t).toOption.elim r Prod.fst

/-- `Joins t r ts rest parts`: what a transfer does to the transfers `ts` of the delivery in
progress.  It is passed over, or they are lost, or it joins them.  Then `rest` are the transfers of
the delivery in progress, and `parts` those of a complete one. -/
inductive Joins (t : Transfer) (r : Receiver) (ts : List Transfer) :
    List Transfer → List (List Transfer) → Prop
  | passed : Joins t r ts ts []
  | lost : Joins t r ts [] []
  | grown (hstate : ¬ r.IsDetaching) (hkept : t.aborted = false) : Joins t r ts (ts ++ [t]) []
  | complete (hstate : ¬ r.IsDetaching) (hkept : t.aborted = false) : Joins t r ts [] [ts ++ [t]]

/-- Whether an end comes about from another one by queueing a message for each part. -/
structure Queues (r : Receiver) (parts : List (List Transfer)) (r' : Receiver) : Prop where
  received_eq : r'.received =
    r.received ++ (parts.filterMap Message.ofParts).map (Message.queuedBy r.autoAccept)
  isSome : ∀ g ∈ parts, (Message.ofParts g).isSome = true
  autoAccept_eq : r'.autoAccept = r.autoAccept

theorem queues_nil (hreceived : r'.received = r.received) (hauto : r'.autoAccept = r.autoAccept) :
    r.Queues [] r' :=
  ⟨by simp [hreceived], by simp, hauto⟩

theorem Queues.trans {r'' : Receiver} {parts more : List (List Transfer)} (h : r.Queues parts r')
    (h' : r'.Queues more r'') : r.Queues (parts ++ more) r'' := by
  refine ⟨?_, fun g hg => (List.mem_append.1 hg).elim (h.isSome g) (h'.isSome g),
    h'.autoAccept_eq.trans h.autoAccept_eq⟩
  rw [h'.received_eq, h.received_eq, h.autoAccept_eq, List.filterMap_append, List.map_append,
    List.append_assoc]

theorem joins_take (t : Transfer) (h : r.Gathers ts) :
    ∃ rest parts, Joins t r ts rest parts ∧ (r.take t).Gathers rest ∧
      r.Queues parts (r.take t) := by
  have htakes := takes_onTransfer t r
  unfold take
  generalize r.onTransfer t = result at htakes
  cases htakes with
  | dropped => exact ⟨_, _, .passed, h, queues_nil rfl rfl⟩
  | refused => exact ⟨_, _, .passed, h, queues_nil rfl rfl⟩
  | aborted =>
    obtain ⟨credit, hrefill⟩ := refill_eq r.opened
    change ∃ rest parts, Joins t r ts rest parts ∧ Gathers rest r.opened.refill.1 ∧
      r.Queues parts r.opened.refill.1
    rw [hrefill]
    exact ⟨_, _, .lost, gathers_nil rfl, queues_nil rfl rfl⟩
  | exceeding => exact ⟨_, _, .lost, gathers_nil rfl, queues_nil rfl rfl⟩
  | @more m hstate hpart hkept =>
    obtain ⟨credit, hrefill⟩ := refill_eq { r.opened with inProgress := some (m.extend t) }
    change ∃ rest parts, Joins t r ts rest parts ∧ Gathers rest (refill _).1 ∧
      r.Queues parts (refill _).1
    rw [hrefill]
    exact ⟨_, _, .grown hstate hkept, gathers_of_some (h.ofParts_snoc hpart) rfl,
      queues_nil rfl rfl⟩
  | @last m hstate hpart hkept =>
    obtain ⟨unsettled, hqueue⟩ := queue_eq (m.extend t) r.opened
    obtain ⟨credit, hrefill⟩ := refill_eq (r.opened.queue (m.extend t)).1
    change ∃ rest parts, Joins t r ts rest parts ∧ Gathers rest (refill _).1 ∧
      r.Queues parts (refill _).1
    rw [hrefill, hqueue]
    refine ⟨_, _, .complete hstate hkept, gathers_nil rfl, ?_, ?_, rfl⟩
    · simp [h.ofParts_snoc hpart, opened]
    · simp [h.ofParts_snoc hpart]

/-- Whether a transfer that an end takes has another id than the delivery in progress. -/
def Intrudes (t : Transfer) (r : Receiver) : Prop :=
  ¬ r.IsDetaching ∧ t.aborted = false ∧
    ∃ m x, r.inProgress = some m ∧ t.deliveryId = some x ∧ x ≠ m.deliveryId

/-- A transfer that intrudes is added to the delivery in progress all the same. -/
theorem take_of_intrudes (h : r.Intrudes t) (hpart : r.inProgress = some m)
    (hsize : Within r.endpoint.maxMessageSize (m.extend t).payload.length) :
    if t.more then (r.take t).inProgress = some (m.extend t)
    else (r.take t).received = r.received ++ [(m.extend t).queuedBy r.autoAccept] := by
  have hor : r.inProgress.or (Message.start t) = some m := by rw [hpart, Option.some_or]
  unfold take
  cases hmore : t.more with
  | true =>
    rw [onTransfer_of_more h.1 hor h.2.1 (exceedsLimit_eq_none hsize) hmore]
    obtain ⟨credit, hrefill⟩ := refill_eq { r.opened with inProgress := some (m.extend t) }
    exact congrArg inProgress hrefill
  | false =>
    rw [onTransfer_of_last h.1 hor h.2.1 (exceedsLimit_eq_none hsize) hmore]
    obtain ⟨unsettled, hqueue⟩ := queue_eq (m.extend t) r.opened
    obtain ⟨credit, hrefill⟩ := refill_eq (r.opened.queue (m.extend t)).1
    rw [hqueue] at hrefill
    exact (congrArg received (congrArg (fun r => (refill r).1) hqueue)).trans
      (congrArg received hrefill)

/-- Transfers of one delivery stay so with a transfer that does not intrude. -/
theorem isPure_snoc (h : r.Gathers ts) (hpure : Message.IsPure ts) (hstate : ¬ r.IsDetaching)
    (hkept : t.aborted = false) (ht : ¬ r.Intrudes t) : Message.IsPure (ts ++ [t]) := by
  intro m hm u hu x hx
  cases hpart : Message.ofParts ts with
  | none =>
    rw [h.eq_nil hpart, List.nil_append] at hm hu
    obtain ⟨id, hid, rfl⟩ := Option.map_eq_some_iff.1 hm
    rw [List.mem_singleton.1 hu, hid] at hx
    exact (Option.some.inj hx).symm
  | some part =>
    rw [Message.ofParts_snoc hpart] at hm
    cases hm
    rcases List.mem_append.1 hu with hu | hu
    · exact hpure part hpart u hu x hx
    · rw [List.mem_singleton.1 hu] at hx
      by_contra hne
      exact ht ⟨hstate, hkept, part, x, h.inProgress_eq.trans hpart, hx, hne⟩

namespace Joins

variable {rest : List Transfer} {parts : List (List Transfer)}

theorem sublist (h : Joins t r ts rest parts) : (parts.flatten ++ rest).Sublist (ts ++ [t]) := by
  cases h with
  | passed => exact List.sublist_append_left ts [t]
  | lost => exact List.nil_sublist _
  | grown => exact List.Sublist.refl _
  | complete => simp

theorem isPure (h : Joins t r ts rest parts) (hgathers : r.Gathers ts)
    (hpure : Message.IsPure ts) (ht : ¬ r.Intrudes t) : ∀ g ∈ rest :: parts, Message.IsPure g := by
  have hnil : Message.IsPure [] := fun _ hm => by cases hm
  cases h with
  | passed => exact List.forall_mem_singleton.2 hpure
  | lost => exact List.forall_mem_singleton.2 hnil
  | grown hstate hkept =>
    exact List.forall_mem_singleton.2 (isPure_snoc hgathers hpure hstate hkept ht)
  | complete hstate hkept =>
    exact List.forall_mem_cons.2
      ⟨hnil, List.forall_mem_singleton.2 (isPure_snoc hgathers hpure hstate hkept ht)⟩

end Joins

/-! ## Transfers in a row -/

/-- The end after transfers in a row. -/
def takeEach (r : Receiver) (us : List Transfer) : Receiver := us.foldl take r

/-- Whether none of some transfers intrudes when its turn comes. -/
def Unmixed (r : Receiver) : List Transfer → Prop
  | [] => True
  | t :: us => ¬ r.Intrudes t ∧ (r.take t).Unmixed us

theorem gathers_takeEach (h : r.Gathers ts) (us : List Transfer) :
    ∃ parts rest, (parts.flatten ++ rest).Sublist (ts ++ us) ∧ (r.takeEach us).Gathers rest ∧
      r.Queues parts (r.takeEach us) ∧
      (r.Unmixed us → Message.IsPure ts → ∀ g ∈ rest :: parts, Message.IsPure g) := by
  induction us generalizing r ts with
  | nil =>
    refine ⟨[], ts, ?_, h, queues_nil rfl rfl, fun _ hpure => List.forall_mem_singleton.2 hpure⟩
    rw [List.append_nil]
    exact List.Sublist.refl ts
  | cons t us ih =>
    obtain ⟨between, parts, hjoins, hgathers, hqueues⟩ := joins_take t h
    obtain ⟨more, rest, hsublist, hgathers', hqueues', hpure⟩ := ih hgathers
    refine ⟨parts ++ more, rest, ?_, hgathers', hqueues.trans hqueues', fun hunmixed hts => ?_⟩
    · have hstep := hjoins.sublist.append (List.Sublist.refl us)
      rw [List.append_assoc, List.append_assoc] at hstep
      rw [List.flatten_append, List.append_assoc]
      exact (List.Sublist.append (List.Sublist.refl _) hsublist).trans hstep
    · have hstep := List.forall_mem_cons.1 (hjoins.isPure h hts hunmixed.1)
      have hrest := List.forall_mem_cons.1 (hpure hunmixed.2 hstep.1)
      exact List.forall_mem_cons.2 ⟨hrest.1, List.forall_mem_append.2 ⟨hstep.2, hrest.2⟩⟩

/-- Each message that an end queues is made of transfers of its own, in their order, and so is the
delivery in progress.  Their ids are that of the message as long as no transfer intrudes; one that
does becomes a part of the delivery in progress, unless that gets too long. -/
theorem messages_of_takeEach (r : Receiver) (us : List Transfer) :
    ∃ parts rest, (parts.flatten ++ rest).Sublist (r.begun ++ us) ∧
      r.Queues parts (r.takeEach us) ∧
      (r.takeEach us).inProgress = Message.ofParts rest ∧
      (r.Unmixed us → ∀ g ∈ rest :: parts, Message.IsPure g) ∧
      ∀ t m, (r.takeEach us).Intrudes t → (r.takeEach us).inProgress = some m →
        Within (r.takeEach us).endpoint.maxMessageSize (m.extend t).payload.length →
        if t.more then ((r.takeEach us).take t).inProgress = some (m.extend t)
        else ((r.takeEach us).take t).received =
          (r.takeEach us).received ++ [(m.extend t).queuedBy (r.takeEach us).autoAccept] := by
  have hbegun : Message.IsPure r.begun := by
    unfold begun
    cases r.inProgress with
    | none => exact fun _ hm => by cases hm
    | some part =>
      intro m hm t ht x hx
      rw [Option.toList_some, List.map_singleton] at hm ht
      rw [part.ofParts_asTransfer] at hm
      cases hm
      rw [List.mem_singleton.1 ht] at hx
      exact (Option.some.inj hx).symm
  obtain ⟨parts, rest, hsublist, hgathers, hqueues, hpure⟩ := gathers_takeEach r.gathers_begun us
  exact ⟨parts, rest, hsublist, hqueues, hgathers.inProgress_eq, fun h => hpure h hbegun,
    fun t m ht hm hsize => take_of_intrudes ht hm hsize⟩

/-- An attached end that accepts by itself. -/
def attachedEnd : Receiver where
  endpoint :=
    { name := "x", handle := 0, role := .receiver, state := .attached, senderSettleMode := .mixed,
      receiverSettleMode := .first }
  prefetch := 10
  autoAccept := true

/-- The first transfer of a delivery, of which more is to come. -/
def firstPart : Transfer where
  deliveryId := some 0
  more := true
  payload := [0x61, 0x61]

/-- A whole delivery in one transfer. -/
def nextWhole : Transfer where
  deliveryId := some 1
  payload := [0x62, 0x62]

/-- The rest of the first delivery keeps the next one apart from it, which else joins it. -/
theorem messages_of_finishedFirst :
    attachedEnd.Unmixed [firstPart, { payload := [0x63] }, nextWhole] ∧
      (∃ parts, attachedEnd.Queues parts
        (attachedEnd.takeEach [firstPart, { payload := [0x63] }, nextWhole]) ∧
        ∀ g ∈ parts, Message.IsPure g) ∧
      ((attachedEnd.takeEach [firstPart]).take nextWhole).received =
        [⟨0, none, true, [0x61, 0x61, 0x62, 0x62]⟩] := by
  have hunmixed : attachedEnd.Unmixed [firstPart, { payload := [0x63] }, nextWhole] := by
    refine ⟨?_, ?_, ?_, trivial⟩
    · rintro ⟨-, -, m, x, hm, -⟩
      cases hm
    · rintro ⟨-, -, m, x, -, hx, -⟩
      cases hx
    · rintro ⟨-, -, m, x, hm, -⟩
      cases hm
  have hintrudes : (attachedEnd.takeEach [firstPart]).Intrudes nextWhole :=
    ⟨not_isDetaching rfl, rfl, _, _, rfl, rfl, by decide⟩
  obtain ⟨parts, rest, -, hqueues, -, hpure, -⟩ :=
    messages_of_takeEach attachedEnd [firstPart, { payload := [0x63] }, nextWhole]
  obtain ⟨-, -, -, -, -, -, hjoined⟩ := messages_of_takeEach attachedEnd [firstPart]
  refine ⟨hunmixed, ⟨parts, hqueues, (List.forall_mem_cons.1 (hpure hunmixed)).2⟩, ?_⟩
  exact hjoined nextWhole _ hintrudes rfl fun _ hl => by cases hl

/-- Without it the next delivery ends up in the message of the first one. -/
theorem merged_of_unfinishedFirst :
    (attachedEnd.takeEach [firstPart, nextWhole]).received.map
        (fun m : Message => (m.deliveryId, m.payload)) = [(0, [0x61, 0x61, 0x62, 0x62])] ∧
      (attachedEnd.take firstPart).Intrudes nextWhole :=
  ⟨rfl, not_isDetaching rfl, rfl, _, _, rfl, rfl, by decide⟩

end Receiver

end Amqp.Link
