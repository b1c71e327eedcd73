import Amqp.Proofs.Link.Gathering
import Mathlib.Data.List.SplitBy

/-!
# Deliveries put together again

`Transfer.deliveriesOf` cuts a list of transfers into deliveries: each ends with the first transfer
that aborts it or announces no more.  If every delivery starts with an id and keeps to the size
limit (`Transfer.Receivable`), a receiving end makes exactly one message of each complete one, in
order, and counts them all (`takeAll_of_receivable`).  How a delivery is cut makes no difference.
-/

namespace Amqp

/-! ## The deliveries in a list of transfers -/

namespace Transfer

/-- Whether a transfer is the last one of its delivery. -/
def endsDelivery (t : Transfer) : Bool := t.aborted || !t.more

/-- Transfers in a row, delivery by delivery.  The last delivery may be unfinished. -/
def deliveriesOf (ts : List Transfer) : List (List Transfer) :=
  ts.splitBy fun t _ => !t.endsDelivery

/-- Whether transfers are only a part of a delivery. -/
def IsOpen (ts : List Transfer) : Prop := ∀ t ∈ ts, t.endsDelivery = false

/-- Whether the last transfer of a delivery completes it. -/
def completes (d : List Transfer) : Bool := d.getLast?.any fun t => !t.aborted && !t.more

/-- Whether a receiving end with a size limit can take a delivery: it starts with an id, and what is
not aborted of it is within the limit. -/
structure Receivable (limit : Option UInt64) (d : List Transfer) : Prop where
  starts : ∃ t ∈ d.head?, t.deliveryId.isSome = true
  within : Link.Within limit ((d.filter (!·.aborted)).flatMap (·.payload)).length

/-- The messages of the complete deliveries. -/
def completeMessages (ts : List Transfer) : List Link.Message :=
  ((deliveriesOf ts).filter completes).filterMap Link.Message.ofParts

/-- What has arrived of an unfinished delivery. -/
def unfinishedMessage (ts : List Transfer) : Option Link.Message :=
  ((deliveriesOf ts).getLast?.filter fun d => d.all (!·.endsDelivery)).bind Link.Message.ofParts

variable {ts us g : List Transfer} {t : Transfer}

theorem isOpen_nil : IsOpen [] := fun _ ht => absurd ht List.not_mem_nil

theorem IsOpen.snoc (h : IsOpen g) (ht : t.endsDelivery = false) : IsOpen (g ++ [t]) :=
  List.forall_mem_append.2 ⟨h, List.forall_mem_singleton.2 ht⟩

theorem isChain_of_isOpen (h : IsOpen g) : g.IsChain fun t _ => !t.endsDelivery := by
  induction g with
  | nil => exact List.isChain_nil
  | cons t g ih =>
    obtain ⟨ht, hg⟩ := List.forall_mem_cons.1 h
    exact List.isChain_cons.2 ⟨fun _ _ => by rw [ht]; rfl, ih hg⟩

theorem deliveriesOf_of_isOpen (h : IsOpen g) (hne : g ≠ []) : deliveriesOf g = [g] :=
  List.splitBy_of_isChain hne (isChain_of_isOpen h)

theorem deliveriesOf_snoc (h : IsOpen g) (t : Transfer) :
    deliveriesOf (g ++ [t]) = [g ++ [t]] := by
  refine List.splitBy_of_isChain (by simp) ?_
  refine (isChain_of_isOpen h).append (List.isChain_singleton t) fun u hu _ _ => ?_
  rw [h u (List.mem_of_getLast? hu)]
  rfl

/-- A transfer that ends a delivery sets the next ones apart. -/
theorem deliveriesOf_of_ends (h : IsOpen g) (ht : t.endsDelivery = true) (ts : List Transfer) :
    deliveriesOf (g ++ t :: ts) = (g ++ [t]) :: deliveriesOf ts := by
  have hsplit : deliveriesOf (g ++ [t] ++ ts) = deliveriesOf (g ++ [t]) ++ deliveriesOf ts := by
    refine List.splitBy_append fun u hu _ _ => ?_
    rw [List.getLast?_concat] at hu
    cases hu
    rw [ht]
    rfl
  rw [List.append_cons, hsplit, deliveriesOf_snoc h]
  rfl

/-- The next transfer goes with the delivery that is open. -/
theorem deliveriesOf_cons (h : IsOpen g) (t : Transfer) (ts : List Transfer) :
    ∃ d ds, deliveriesOf (g ++ t :: ts) = (g ++ t :: d) :: ds := by
  induction ts generalizing g t with
  | nil => exact ⟨[], [], deliveriesOf_snoc h t⟩
  | cons u ts ih =>
    cases ht : t.endsDelivery with
    | true => exact ⟨[], _, deliveriesOf_of_ends h ht (u :: ts)⟩
    | false =>
      obtain ⟨d, ds, hds⟩ := ih (h.snoc ht) u
      rw [← List.append_cons, ← List.append_cons] at hds
      exact ⟨u :: d, ds, hds⟩

theorem completes_snoc (g : List Transfer) (t : Transfer) :
    completes (g ++ [t]) = (!t.aborted && !t.more) := by
  unfold completes
  rw [List.getLast?_concat]
  rfl

theorem completeMessages_of_isOpen (h : IsOpen g) : completeMessages g = [] := by
  by_cases hne : g = []
  · rw [hne]
    rfl
  have hcompletes : completes g = false := by
    rw [← List.dropLast_append_getLast hne, completes_snoc]
    rw [(Bool.or_eq_false_iff.1 (h _ (List.getLast_mem hne))).2, Bool.and_false]
  unfold completeMessages
  rw [deliveriesOf_of_isOpen h hne, List.filter_singleton, hcompletes]
  rfl

theorem unfinishedMessage_of_isOpen (h : IsOpen g) :
    unfinishedMessage g = Link.Message.ofParts g := by
  by_cases hne : g = []
  · rw [hne]
    rfl
  have hall : g.all (!·.endsDelivery) = true :=
    List.all_eq_true.2 fun t ht => by rw [h t ht]; rfl
  unfold unfinishedMessage
  rw [deliveriesOf_of_isOpen h hne, List.getLast?_singleton, Option.filter_some, hall]
  rfl

theorem completeMessages_of_ends (h : IsOpen g) (ht : t.endsDelivery = true) (ts : List Transfer) :
    completeMessages (g ++ t :: ts) =
      (if completes (g ++ [t]) then (Link.Message.ofParts (g ++ [t])).toList else []) ++
        completeMessages ts := by
  unfold completeMessages
  rw [deliveriesOf_of_ends h ht, List.filter_cons]
  split_ifs
  · rw [List.filterMap_cons]
    cases Link.Message.ofParts (g ++ [t]) <;> rfl
  · rfl

theorem unfinishedMessage_of_ends (h : IsOpen g) (ht : t.endsDelivery = true)
    (ts : List Transfer) : unfinishedMessage (g ++ t :: ts) = unfinishedMessage ts := by
  unfold unfinishedMessage
  rw [deliveriesOf_of_ends h ht]
  cases hds : deliveriesOf ts with
  | nil => simp [ht]
  | cons d ds => rw [List.getLast?_cons_cons]

end Transfer

namespace Link.Receiver

open Transfer

variable {r : Receiver} {g : List Transfer} {t : Transfer}

/-- Takes transfers in a row, up to the first one that is refused. -/
def takeAll : List Transfer → Receiver → Except Fault (Receiver × List Output)
  | [], r => .ok (r, [])
  | t :: ts, r => (r.onTransfer t).bind fun change =>
    (takeAll ts change.1).map fun rest => (rest.1, change.2 ++ rest.2)

/-- What an end keeps of another one as it takes transfers. -/
structure Steady (r r' : Receiver) : Prop where
  state_eq : r'.endpoint.state = r.endpoint.state
  maxMessageSize_eq : r'.endpoint.maxMessageSize = r.endpoint.maxMessageSize
  autoAccept_eq : r'.autoAccept = r.autoAccept

theorem Steady.trans {r' r'' : Receiver} (h : r.Steady r') (h' : r'.Steady r'') : r.Steady r'' :=
  ⟨h'.state_eq.trans h.state_eq, h'.maxMessageSize_eq.trans h.maxMessageSize_eq,
    h'.autoAccept_eq.trans h.autoAccept_eq⟩

theorem steady_opened (r : Receiver) : r.Steady r.opened := by
  unfold opened
  split_ifs <;> exact ⟨rfl, rfl, rfl⟩

theorem steady_refill (r : Receiver) : r.Steady r.refill.1 := by
  obtain ⟨credit, hrefill⟩ := r.refill_eq
  rw [hrefill]
  exact ⟨rfl, rfl, rfl⟩

theorem steady_queue (m : Message) (r : Receiver) : r.Steady (r.queue m).1 := by
  obtain ⟨unsettled, hqueue⟩ := r.queue_eq m
  rw [hqueue]
  exact ⟨rfl, rfl, rfl⟩

/-! ### One transfer -/

theorem payload_of_ofParts {ts : List Transfer} {m : Message} (h : Message.ofParts ts = some m) :
    m.payload = ts.flatMap (·.payload) := by
  cases ts with
  | nil => cases h
  | cons t ts =>
    obtain ⟨id, -, rfl⟩ := Option.map_eq_some_iff.1 h
    rfl

/-- The delivery of a transfer has started, or starts with it. -/
theorem exists_part {limit : Option UInt64} {d : List Transfer} (h : r.Gathers g)
    (hd : Receivable limit (g ++ t :: d)) : ∃ m, r.inProgress.or (Message.start t) = some m := by
  cases hpart : r.inProgress with
  | some m => exact ⟨m, rfl⟩
  | none =>
    rw [h.eq_nil (h.inProgress_eq.symm.trans hpart)] at hd
    obtain ⟨u, hu, hid⟩ := hd.starts
    cases hu
    obtain ⟨id, hid⟩ := Option.isSome_iff_exists.1 hid
    exact ⟨_, congrArg (Option.map _) hid⟩

/-- A delivery in progress has been counted, and one that starts is counted now. -/
theorem deliveryCount_opened (h : r.Gathers g) {base : UInt32}
    (hcount : r.endpoint.deliveryCount = base + UInt32.ofNat (min g.length 1)) :
    r.opened.endpoint.deliveryCount = base + 1 := by
  cases hpart : r.inProgress with
  | none =>
    rw [h.eq_nil (h.inProgress_eq.symm.trans hpart)] at hcount
    rw [opened_of_none hpart]
    change r.endpoint.deliveryCount + 1 = _
    rw [hcount]
    exact congrArg (· + 1) (UInt32.add_zero base)
  | some m =>
    have hne : g ≠ [] := by
      rintro rfl
      exact absurd (hpart.symm.trans h.inProgress_eq) (by simp [Message.ofParts])
    have hone : min g.length 1 = 1 := Nat.min_eq_right (List.length_pos_iff.2 hne)
    unfold opened
    rw [hpart]
    rw [hone] at hcount
    exact hcount

theorem within_of_receivable {limit : Option UInt64} {d : List Transfer} {m : Message}
    (hopen : IsOpen g) (hkept : t.aborted = false) (hd : Receivable limit (g ++ t :: d))
    (hm : Message.ofParts (g ++ [t]) = some m) : Within limit m.payload.length := by
  have hfilter : g.filter (!·.aborted) = g := by
    refine List.filter_eq_self.2 fun u hu => ?_
    rw [(Bool.or_eq_false_iff.1 (hopen u hu)).1]
    rfl
  refine hd.within.mono ?_
  rw [payload_of_ofParts hm, List.filter_append, hfilter, List.filter_cons, hkept]
  simp

/-- What becomes of the next transfer of a delivery that is open. -/
theorem onTransfer_of_receivable {d : List Transfer} {base : UInt32} (hstate : ¬ r.IsDetaching)
    (h : r.Gathers g) (hopen : IsOpen g)
    (hd : Receivable r.endpoint.maxMessageSize (g ++ t :: d))
    (hcount : r.endpoint.deliveryCount = base + UInt32.ofNat (min g.length 1)) :
    ∃ r' outputs, r.onTransfer t = .ok (r', outputs) ∧ r.Steady r' ∧
      r'.endpoint.deliveryCount = base + 1 ∧
      r'.received = r.received ++
        (if completes (g ++ [t]) then (Message.ofParts (g ++ [t])).toList else []).map
          (Message.queuedBy r.autoAccept) ∧
      r'.Gathers (if t.endsDelivery then [] else g ++ [t]) := by
  obtain ⟨m, hpart⟩ := exists_part h hd
  have hm := h.ofParts_snoc hpart
  have hopened := deliveryCount_opened h hcount
  have hsteady := r.steady_opened
  rw [completes_snoc]
  unfold endsDelivery
  cases hkept : t.aborted with
  | true =>
    obtain ⟨credit, hrefill⟩ := r.opened.refill_eq
    refine ⟨r.opened.refill.1, r.opened.refill.2, onTransfer_of_aborted hstate hpart hkept,
      hsteady.trans (steady_refill _), ?_⟩
    rw [hrefill]
    exact ⟨hopened, (List.append_nil _).symm, gathers_nil rfl⟩
  | false =>
    have hsize := exceedsLimit_eq_none (within_of_receivable hopen hkept hd hm)
    cases hmore : t.more with
    | true =>
      have hgrown : r.Steady { r.opened with inProgress := some (m.extend t) } :=
        ⟨hsteady.state_eq, hsteady.maxMessageSize_eq, hsteady.autoAccept_eq⟩
      obtain ⟨credit, hrefill⟩ := refill_eq { r.opened with inProgress := some (m.extend t) }
      refine ⟨(refill _).1, (refill _).2, onTransfer_of_more hstate hpart hkept hsize hmore,
        hgrown.trans (steady_refill _), ?_⟩
      rw [hrefill]
      exact ⟨hopened, (List.append_nil _).symm, gathers_of_some hm rfl⟩
    | false =>
      obtain ⟨unsettled, hqueue⟩ := queue_eq (m.extend t) r.opened
      obtain ⟨credit, hrefill⟩ := refill_eq (r.opened.queue (m.extend t)).1
      refine ⟨_, _, onTransfer_of_last hstate hpart hkept hsize hmore,
        hsteady.trans ((steady_queue _ _).trans (steady_refill _)), ?_⟩
      rw [hrefill, hqueue, hm]
      exact ⟨hopened, congrArg (fun auto => r.received ++ [(m.extend t).queuedBy auto])
        hsteady.autoAccept_eq, gathers_nil rfl⟩

/-! ### Transfers in a row -/

theorem length_deliveriesOf (h : IsOpen g) : (deliveriesOf g).length = min g.length 1 := by
  cases g with
  | nil => rfl
  | cons t g =>
    rw [deliveriesOf_of_isOpen h (by simp), List.length_cons]
    simp

/-- From an open delivery on, by induction on the transfers that are still to come. -/
theorem takeAll_of_gathers {us : List Transfer} {base : UInt32} (hstate : ¬ r.IsDetaching)
    (h : r.Gathers g) (hopen : IsOpen g)
    (hcount : r.endpoint.deliveryCount = base + UInt32.ofNat (min g.length 1))
    (hus : ∀ d ∈ deliveriesOf (g ++ us), Receivable r.endpoint.maxMessageSize d) :
    ∃ r' outputs, r.takeAll us = .ok (r', outputs) ∧
      r'.received = r.received ++
        (completeMessages (g ++ us)).map (Message.queuedBy r.autoAccept) ∧
      r'.inProgress = unfinishedMessage (g ++ us) ∧
      r'.endpoint.deliveryCount = base + UInt32.ofNat (deliveriesOf (g ++ us)).length := by
  induction us generalizing r g base with
  | nil =>
    rw [List.append_nil, completeMessages_of_isOpen hopen, unfinishedMessage_of_isOpen hopen,
      length_deliveriesOf hopen]
    exact ⟨r, [], rfl, (List.append_nil _).symm, h.inProgress_eq, hcount⟩
  | cons t us ih =>
    obtain ⟨d, ds, hds⟩ := deliveriesOf_cons hopen t us
    have hd := hus _ (by rw [hds]; exact List.mem_cons_self)
    obtain ⟨r₁, outputs, hr₁, hsteady, hcount₁, hreceived, hgathers⟩ :=
      onTransfer_of_receivable hstate h hopen hd hcount
    have hstate₁ : ¬ r₁.IsDetaching := by
      unfold IsDetaching at hstate ⊢
      rwa [hsteady.state_eq]
    have hall (r' : Receiver) (more : List Output) (hr' : r₁.takeAll us = .ok (r', more)) :
        r.takeAll (t :: us) = .ok (r', outputs ++ more) := by
      unfold takeAll
      rw [hr₁]
      change (r₁.takeAll us).map _ = _
      rw [hr']
      rfl
    rw [← hsteady.maxMessageSize_eq] at hus
    cases hends : t.endsDelivery with
    | false =>
      rw [hends, if_neg Bool.false_ne_true] at hgathers
      rw [List.append_cons] at hus ⊢
      have hone : min (g ++ [t]).length 1 = 1 := by simp
      have hstarted : r₁.endpoint.deliveryCount =
          base + UInt32.ofNat (min (g ++ [t]).length 1) := by
        rw [hone]
        exact hcount₁
      obtain ⟨r', more, hr', hreceived', hrest⟩ :=
        ih hstate₁ hgathers (hopen.snoc hends) hstarted hus
      refine ⟨r', _, hall r' more hr', ?_, hrest⟩
      have hnone : completes (g ++ [t]) = false := by
        rw [completes_snoc, (Bool.or_eq_false_iff.1 hends).2, Bool.and_false]
      rw [hnone] at hreceived
      rw [hreceived', hsteady.autoAccept_eq, hreceived]
      simp
    | true =>
      rw [hends, if_pos rfl] at hgathers
      rw [deliveriesOf_of_ends hopen hends] at hus ⊢
      obtain ⟨r', more, hr', hreceived', hprogress, hcount'⟩ :=
        ih hstate₁ hgathers isOpen_nil (hcount₁.trans (UInt32.add_zero _).symm)
          (List.forall_mem_cons.1 hus).2
      refine ⟨r', _, hall r' more hr', ?_, ?_, ?_⟩
      · rw [hreceived', hsteady.autoAccept_eq, hreceived, completeMessages_of_ends hopen hends,
          List.map_append, List.append_assoc]
        rfl
      · rw [unfinishedMessage_of_ends hopen hends]
        exact hprogress
      · rw [hcount', List.length_cons, UInt32.ofNat_add, UInt32.add_assoc,
          UInt32.add_comm (UInt32.ofNat _) _]
        rfl

/-- A receiving end between two deliveries makes one message of each complete delivery, in order;
an aborted one leaves nothing, and an unfinished one stays in progress.  All of them count.  Other
transfers that make up the same messages give the same queue. -/
theorem takeAll_of_receivable {ts : List Transfer} (hstate : ¬ r.IsDetaching)
    (hbetween : r.inProgress = none)
    (hts : ∀ d ∈ deliveriesOf ts, Receivable r.endpoint.maxMessageSize d) :
    ∃ r' outputs, r.takeAll ts = .ok (r', outputs) ∧
      r'.received = r.received ++ (completeMessages ts).map (Message.queuedBy r.autoAccept) ∧
      r'.inProgress = unfinishedMessage ts ∧
      r'.endpoint.deliveryCount =
        r.endpoint.deliveryCount + UInt32.ofNat (deliveriesOf ts).length ∧
      ∀ us, (∀ d ∈ deliveriesOf us, Receivable r.endpoint.maxMessageSize d) →
        completeMessages us = completeMessages ts →
        ∃ r'' outputs', r.takeAll us = .ok (r'', outputs') ∧ r''.received = r'.received := by
  have hrun (us : List Transfer)
      (hus : ∀ d ∈ deliveriesOf us, Receivable r.endpoint.maxMessageSize d) :=
    takeAll_of_gathers hstate (gathers_nil hbetween) isOpen_nil (UInt32.add_zero _).symm hus
  obtain ⟨r', outputs, hr', hreceived, hprogress, hcount⟩ := hrun ts hts
  refine ⟨r', outputs, hr', hreceived, hprogress, hcount, fun us hus hsame => ?_⟩
  obtain ⟨r'', outputs', hr'', hreceived', -⟩ := hrun us hus
  exact ⟨r'', outputs', hr'', by rw [hreceived', hreceived, List.nil_append, hsame]; rfl⟩

/-- An attached end that takes messages of two octets and leaves it to its application to settle
them. -/
def narrowEnd : Receiver where
  endpoint :=
    { name := "x", handle := 0, role := .receiver, state := .attached, maxMessageSize := some 2,
      senderSettleMode := .mixed, receiverSettleMode := .first }
  prefetch := 0
  autoAccept := false

/-- A delivery in two transfers, an aborted one, one in a single transfer, and the beginning of a
last one. -/
def fourDeliveries : List Transfer :=
  [{ deliveryId := some 5, deliveryTag := some [0], more := true, payload := [1] },
    { deliveryId := some 5, settled := some true, payload := [2] },
    { deliveryId := some 6, more := true, payload := [3, 3] }, { aborted := true, payload := [3] },
    { deliveryId := some 7, payload := [4, 4] }, { deliveryId := some 8, more := true }]

/-- The same two complete deliveries, the other one of them cut. -/
def twoDeliveries : List Transfer :=
  [{ deliveryId := some 5, deliveryTag := some [0], settled := some true, payload := [1, 2] },
    { deliveryId := some 7, more := true, payload := [4] },
    { deliveryId := some 7, payload := [4] }]

theorem takeAll_of_fourDeliveries :
    (∀ d ∈ deliveriesOf fourDeliveries, Receivable narrowEnd.endpoint.maxMessageSize d) ∧
    (∀ d ∈ deliveriesOf twoDeliveries, Receivable narrowEnd.endpoint.maxMessageSize d) ∧
    ∃ r' outputs, narrowEnd.takeAll fourDeliveries = .ok (r', outputs) ∧
      r'.received = [⟨5, some [0], true, [1, 2]⟩, ⟨7, none, false, [4, 4]⟩] ∧
      r'.inProgress = some ⟨8, none, false, []⟩ ∧ r'.endpoint.deliveryCount = 4 ∧
      ∃ r'' outputs', narrowEnd.takeAll twoDeliveries = .ok (r'', outputs') ∧
        r''.received = r'.received := by
  have hlimit {n : Nat} (h : n ≤ 2) : Within narrowEnd.endpoint.maxMessageSize n := by
    intro l hl _
    cases hl
    exact h
  have hfour :
      ∀ d ∈ deliveriesOf fourDeliveries, Receivable narrowEnd.endpoint.maxMessageSize d := by
    refine List.forall_mem_cons.2 ⟨?_, List.forall_mem_cons.2 ⟨?_, List.forall_mem_cons.2 ⟨?_,
      List.forall_mem_singleton.2 ?_⟩⟩⟩ <;> exact ⟨⟨_, rfl, rfl⟩, hlimit (by decide)⟩
  have htwo :
      ∀ d ∈ deliveriesOf twoDeliveries, Receivable narrowEnd.endpoint.maxMessageSize d := by
    refine List.forall_mem_cons.2 ⟨?_, List.forall_mem_singleton.2 ?_⟩ <;>
      exact ⟨⟨_, rfl, rfl⟩, hlimit (by decide)⟩
  obtain ⟨r', outputs, hr', hreceived, hprogress, hcount, hsame⟩ :=
    takeAll_of_receivable (not_isDetaching rfl) rfl hfour
  exact ⟨hfour, htwo, r', outputs, hr', hreceived, hprogress, hcount, hsame _ htwo rfl⟩

end Link.Receiver

end Amqp
