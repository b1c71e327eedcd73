import Amqp.Proofs.Link.Deliveries
import Mathlib.Data.List.Nodup

/-!
# Outcomes of deliveries

A delivery that is sent unsettled waits at its sending end until the receiver settles it or the send
timeout has expired.  Then its outcome waits to be taken, and it can be taken once.

`Act` is what can happen to a sending end, and a `Ledger` also keeps the outcomes that have been
taken.  For a single delivery id all of this comes down to its `Fate`, which has four stages and
only moves forward (`Fate.next`).  A ledger stands at the fate of every id, as long as no id is
booked twice (`Stands.run`), and a fate is told by the first act that decides it
(`foldl_next_pending`).
-/

namespace Amqp

/-- A disposition covers the ids that are reached from its first id by counting up to its last,
where ids wrap around. -/
theorem Disposition.covers_iff (d : Disposition) (id : UInt32) :
    d.covers id = true ↔
      ∃ k, k ≤ (d.last.getD d.first - d.first).toNat ∧ id = d.first + UInt32.ofNat k := by
  unfold covers
  rw [decide_eq_true_iff, UInt32.le_iff_toNat_le]
  constructor
  · intro h
    refine ⟨(id - d.first).toNat, h, ?_⟩
    rw [UInt32.ofNat_toNat, UInt32.add_comm, UInt32.sub_add_cancel]
  · rintro ⟨k, hk, rfl⟩
    have hlt := Nat.lt_of_le_of_lt hk (d.last.getD d.first - d.first).toNat_lt
    rw [UInt32.add_comm, UInt32.add_sub_cancel, UInt32.toNat_ofNat_of_lt' hlt]
    exact hk

namespace Link.Sender

/-! ## Tables of a sending end -/

theorem unsettled_conclude (outcome : Outcome) (ids : List UInt32) (s : Sender) (id : UInt32) :
    (s.conclude outcome ids).unsettled.get? id =
      if id ∈ ids then none else s.unsettled.get? id := by
  induction ids generalizing s with
  | nil => simp [conclude]
  | cons i ids ih =>
    rw [conclude, ih]
    show (if id ∈ ids then none else (s.unsettled.erase i).get? id) = _
    rw [Table.get?_erase]
    by_cases hi : id = i <;> by_cases hids : id ∈ ids <;> simp [hi, hids]

theorem outcomes_conclude (outcome : Outcome) (ids : List UInt32) (s : Sender) (id : UInt32) :
    (s.conclude outcome ids).outcomes.get? id =
      if id ∈ ids then some outcome else s.outcomes.get? id := by
  induction ids generalizing s with
  | nil => simp [conclude]
  | cons i ids ih =>
    rw [conclude, ih]
    show (if id ∈ ids then some outcome else (s.outcomes.insert i outcome).get? id) = _
    rw [Table.get?_insert]
    by_cases hi : id = i <;> by_cases hids : id ∈ ids <;> simp [hi, hids]

theorem sendTimeout_conclude (outcome : Outcome) (ids : List UInt32) (s : Sender) :
    (s.conclude outcome ids).sendTimeout = s.sendTimeout := by
  induction ids generalizing s with
  | nil => rfl
  | cons i ids ih => exact ih _

/-- Booking changes the endpoint, and the deliveries that are waited for. -/
theorem exists_book (deliveryId : UInt32) (transfer : Transfer) (now : Nat) (s : Sender) :
    ∃ endpoint unsettled, s.book deliveryId transfer now = { s with endpoint, unsettled } := by
  unfold book
  dsimp only
  split_ifs <;> exact ⟨_, _, rfl⟩

/-- A delivery is waited for once it is booked, unless it has been sent settled. -/
theorem unsettled_book (deliveryId : UInt32) (transfer : Transfer) (now : Nat) (s : Sender)
    (id : UInt32) :
    (s.book deliveryId transfer now).unsettled.get? id =
      if id = deliveryId ∧ transfer.settled ≠ some true then
        some { tag := transfer.deliveryTag.getD [], sentAt := now }
      else s.unsettled.get? id := by
  unfold book
  dsimp only
  by_cases hsettled : transfer.settled = some true
  · have hno : ¬ (id = deliveryId ∧ transfer.settled ≠ some true) := fun hboth =>
      hboth.2 hsettled
    rw [if_pos hsettled, if_neg hno]
  · rw [if_neg hsettled]
    show (s.unsettled.insert deliveryId _).get? id = _
    rw [Table.get?_insert]
    simp [hsettled]

/-- A flow changes the endpoint alone. -/
theorem exists_onFlow (v : Flow) (s : Sender) :
    ∃ endpoint, (s.onFlow v).1 = { s with endpoint } := by
  unfold onFlow
  dsimp only
  split_ifs <;> exact ⟨_, rfl⟩

theorem sendTimeout_onDisposition (d : Disposition) (s : Sender) :
    (s.onDisposition d).1.sendTimeout = s.sendTimeout := by
  unfold onDisposition
  dsimp only
  split
  · exact sendTimeout_conclude _ _ _
  · rfl

theorem sendTimeout_evaluate (now : Nat) (s : Sender) :
    (s.evaluate now).sendTimeout = s.sendTimeout := by
  unfold evaluate
  split
  · rfl
  · exact sendTimeout_conclude _ _ _

/-! ## Acts -/

/-- What can happen to a sending end.  The handshakes of the link change its endpoint alone. -/
inductive Act where
  | draft (payload : Bytes) (settled : Bool)
  | book (deliveryId : UInt32) (transfer : Transfer) (now : Nat)
  | dispose (d : Disposition)
  | evaluate (now : Nat)
  | collect (deliveryId : UInt32)
  | flow (v : Flow)
  | alter (change : Endpoint → Endpoint)

/-- A sending end with the outcomes that have been taken, in order. -/
structure Ledger where
  sender : Sender
  taken : List (UInt32 × Outcome) := []

/-- A ledger after an act. -/
def Ledger.act (l : Ledger) : Act → Ledger
  | .draft payload settled =>
    { l with sender := (l.sender.draft payload settled).toOption.elim l.sender Prod.snd }
  | .book deliveryId transfer now => { l with sender := l.sender.book deliveryId transfer now }
  | .dispose d => { l with sender := (l.sender.onDisposition d).1 }
  | .evaluate now => { l with sender := l.sender.evaluate now }
  | .collect deliveryId =>
    { sender := (l.sender.collect deliveryId).2
      taken := l.taken ++ (l.sender.collect deliveryId).1.toList.map (deliveryId, ·) }
  | .flow v => { l with sender := (l.sender.onFlow v).1 }
  | .alter change => { l with sender.endpoint := change l.sender.endpoint }

/-- Drafting a transfer uses up a tag at most. -/
theorem Ledger.exists_act_draft (payload : Bytes) (settled : Bool) (l : Ledger) :
    ∃ nextTag, l.act (.draft payload settled) = { l with sender.nextTag := nextTag } := by
  show ∃ nextTag, ({ l with sender :=
    (l.sender.draft payload settled).toOption.elim l.sender Prod.snd } : Ledger) = _
  cases hdraft : l.sender.draft payload settled with
  | error fault => exact ⟨l.sender.nextTag, rfl⟩
  | ok result =>
    obtain ⟨t, s'⟩ := result
    obtain ⟨-, rfl⟩ | ⟨-, -, rfl⟩ := draft_cases hdraft
    · exact ⟨l.sender.nextTag, rfl⟩
    · exact ⟨_, rfl⟩

/-- A ledger after acts in a row. -/
def Ledger.run (acts : List Act) (l : Ledger) : Ledger := acts.foldl Ledger.act l

/-- A sending end that has not sent anything. -/
def fresh (endpoint : Endpoint) (sendTimeout : Option UInt64) : Ledger where
  sender := { endpoint, sendTimeout }

/-- The id that an act books. -/
def Act.bookedId? : Act → Option UInt32
  | .book deliveryId _ _ => some deliveryId
  | _ => none

/-- The ids that acts book. -/
def booked (acts : List Act) : List UInt32 := acts.filterMap Act.bookedId?

/-- The outcome that an act decides on for a delivery that has been sent at a time: the receiver
settles it or tells its final state, or the send timeout has expired. -/
def Act.verdict (sendTimeout : Option UInt64) (deliveryId : UInt32) (sentAt : Nat) :
    Act → Option Outcome
  | .dispose d =>
    if d.role = .receiver ∧ d.covers deliveryId = true ∧
        (d.settled = true ∨ d.state.any DeliveryState.isOutcome = true) then
      some (.settled d.state)
    else none
  | .evaluate now =>
    if sendTimeout.any (fun timeout => timeout.toNat ≤ now - sentAt) = true then some .expired
    else none
  | _ => none

/-! ## Deciding acts -/

/-- Whether a sending end has decided on the outcome of a delivery, or left it as it was. -/
def Concludes (s s' : Sender) (deliveryId : UInt32) : Option Outcome → Prop
  | some outcome =>
    s'.unsettled.get? deliveryId = none ∧ s'.outcomes.get? deliveryId = some outcome
  | none =>
    s'.unsettled.get? deliveryId = s.unsettled.get? deliveryId ∧
      s'.outcomes.get? deliveryId = s.outcomes.get? deliveryId

/-- Concluding ids decides on a delivery that is waited for if its id is among them. -/
theorem concludes_conclude {outcome : Outcome} {ids : List UInt32} {s : Sender} {id : UInt32}
    {decides : Pending → Prop} [DecidablePred decides]
    (hmem : id ∈ ids ↔ ∃ p, s.unsettled.get? id = some p ∧ decides p) :
    Concludes s (s.conclude outcome ids) id
      ((s.unsettled.get? id).bind fun p => if decides p then some outcome else none) := by
  have hunsettled := unsettled_conclude outcome ids s id
  have houtcomes := outcomes_conclude outcome ids s id
  by_cases hid : id ∈ ids
  · obtain ⟨p, hp, hdecides⟩ := hmem.1 hid
    rw [if_pos hid] at hunsettled houtcomes
    rw [hp, Option.bind_some, if_pos hdecides]
    exact ⟨hunsettled, houtcomes⟩
  · have hnone : ((s.unsettled.get? id).bind fun p =>
        if decides p then some outcome else none) = none := by
      rw [Option.bind_eq_none_iff]
      exact fun p hp => if_neg fun hdecides => hid (hmem.2 ⟨p, hp, hdecides⟩)
    rw [if_neg hid] at hunsettled houtcomes
    rw [hnone]
    exact ⟨hunsettled, houtcomes⟩

/-- A disposition decides on the deliveries in its range that are waited for, and changes no
other. -/
theorem concludes_onDisposition (d : Disposition) (s : Sender) (id : UInt32) :
    Concludes s (s.onDisposition d).1 id
      ((s.unsettled.get? id).bind fun p => (Act.dispose d).verdict s.sendTimeout id p.sentAt) := by
  by_cases hfinal : d.role = .receiver ∧
      (d.settled = true ∨ d.state.any DeliveryState.isOutcome = true)
  · have hconclude : (s.onDisposition d).1 =
        s.conclude (.settled d.state) (s.unsettled.keys.filter d.covers) := by
      unfold onDisposition
      dsimp only
      split_ifs with h h
      · rfl
      · rfl
      · -- Without covered deliveries there is nothing to conclude.
        have hnil : s.unsettled.keys.filter d.covers = [] := by tauto
        rw [hnil]
        rfl
    have hmem : id ∈ s.unsettled.keys.filter d.covers ↔
        ∃ p, s.unsettled.get? id = some p ∧ (d.role = .receiver ∧ d.covers id = true ∧
          (d.settled = true ∨ d.state.any DeliveryState.isOutcome = true)) := by
      rw [List.mem_filter, Table.mem_keys_iff]
      constructor
      · rintro ⟨⟨p, hp⟩, hcovers⟩
        exact ⟨p, hp, hfinal.1, hcovers, hfinal.2⟩
      · rintro ⟨p, hp, -, hcovers, -⟩
        exact ⟨⟨p, hp⟩, hcovers⟩
    rw [hconclude]
    exact concludes_conclude hmem
  · have hsame : (s.onDisposition d).1 = s := by
      unfold onDisposition
      dsimp only
      rw [if_neg (by tauto)]
    have hnone : ((s.unsettled.get? id).bind fun p =>
        (Act.dispose d).verdict s.sendTimeout id p.sentAt) = none := by
      rw [Option.bind_eq_none_iff]
      exact fun p _ => if_neg (by tauto)
    rw [hsame, hnone]
    exact ⟨rfl, rfl⟩

/-- A disposition changes no delivery outside its range. -/
theorem onDisposition_of_not_covers {d : Disposition} (s : Sender) {id : UInt32}
    (h : d.covers id = false) :
    (s.onDisposition d).1.unsettled.get? id = s.unsettled.get? id ∧
      (s.onDisposition d).1.outcomes.get? id = s.outcomes.get? id := by
  have hconcludes := concludes_onDisposition d s id
  have hnone : ((s.unsettled.get? id).bind fun p =>
      (Act.dispose d).verdict s.sendTimeout id p.sentAt) = none := by
    rw [Option.bind_eq_none_iff]
    exact fun p _ => if_neg (by simp [h])
  rw [hnone] at hconcludes
  exact hconcludes

/-- The send timeout decides on the deliveries that are waited for and overdue. -/
theorem concludes_evaluate (now : Nat) (s : Sender) (id : UInt32) :
    Concludes s (s.evaluate now) id
      ((s.unsettled.get? id).bind fun p =>
        (Act.evaluate now).verdict s.sendTimeout id p.sentAt) := by
  unfold evaluate
  cases htimeout : s.sendTimeout with
  | none =>
    have hnone : ((s.unsettled.get? id).bind fun p =>
        (Act.evaluate now).verdict none id p.sentAt) = none := by
      rw [Option.bind_eq_none_iff]
      exact fun p _ => rfl
    rw [hnone]
    exact ⟨rfl, rfl⟩
  | some timeout =>
    have hmem : id ∈ (s.unsettled.filter fun _ p => timeout.toNat ≤ now - p.sentAt).keys ↔
        ∃ p, s.unsettled.get? id = some p ∧
          (some timeout).any (fun timeout => timeout.toNat ≤ now - p.sentAt) = true := by
      rw [Table.mem_keys_iff]
      simp [Table.get?_filter, Option.filter_eq_some_iff]
    exact concludes_conclude hmem

/-! ## Fates -/

/-- Where a delivery id stands: nothing has been sent unsettled under it, or its outcome is not
known, or waits to be taken, or has been taken. -/
inductive Fate where
  | unsent
  | pending (sentAt : Nat)
  | waiting (outcome : Outcome)
  | taken (outcome : Outcome)

/-- The fate of a delivery id after an act. -/
def Fate.next (sendTimeout : Option UInt64) (id : UInt32) (f : Fate) (act : Act) : Fate :=
  match f with
  | .unsent =>
    match act with
    | .book deliveryId transfer now =>
      if deliveryId = id ∧ transfer.settled ≠ some true then .pending now else .unsent
    | _ => .unsent
  | .pending sentAt => ((act.verdict sendTimeout id sentAt).map .waiting).getD (.pending sentAt)
  | .waiting outcome =>
    match act with
    | .collect deliveryId => if deliveryId = id then .taken outcome else .waiting outcome
    | _ => .waiting outcome
  | .taken outcome => .taken outcome

/-- What a ledger holds under a delivery id: when it was sent if it is unsettled, the outcome that
waits, and what has been taken. -/
structure Holding where
  sentAt : Option Nat := none
  outcome : Option Outcome := none
  taken : List (UInt32 × Outcome) := []

/-- What a ledger holds under a delivery id. -/
def Ledger.holding (l : Ledger) (id : UInt32) : Holding where
  sentAt := (l.sender.unsettled.get? id).map Pending.sentAt
  outcome := l.sender.outcomes.get? id
  taken := l.taken.filter (·.1 = id)

/-- What is held of a delivery of a given fate. -/
def Fate.holding (id : UInt32) : Fate → Holding
  | .unsent => {}
  | .pending sentAt => { sentAt := some sentAt }
  | .waiting outcome => { outcome := some outcome }
  | .taken outcome => { taken := [(id, outcome)] }

section

variable {l : Ledger} {id : UInt32} {f : Fate}

theorem holding_eq {l' : Ledger}
    (hunsettled : l'.sender.unsettled.get? id = l.sender.unsettled.get? id)
    (houtcomes : l'.sender.outcomes.get? id = l.sender.outcomes.get? id)
    (htaken : l'.taken.filter (·.1 = id) = l.taken.filter (·.1 = id)) :
    l'.holding id = l.holding id := by
  unfold Ledger.holding
  rw [hunsettled, houtcomes, htaken]

theorem unsettled_eq_none (h : l.holding id = f.holding id) (hf : ∀ sentAt, f ≠ .pending sentAt) :
    l.sender.unsettled.get? id = none := by
  have hsent : (l.sender.unsettled.get? id).map Pending.sentAt = (f.holding id).sentAt :=
    congrArg Holding.sentAt h
  cases f with
  | pending sentAt => exact absurd rfl (hf sentAt)
  | _ => exact Option.map_eq_none_iff.1 hsent

/-- An act that neither books nor collects moves a delivery on as it decides, if its outcome is not
known yet. -/
theorem holding_of_concludes {act : Act} {s' : Sender} (h : l.holding id = f.holding id)
    (hnext : (∀ sentAt, f ≠ .pending sentAt) → f.next l.sender.sendTimeout id act = f)
    (hconcludes : Concludes l.sender s' id ((l.sender.unsettled.get? id).bind fun p =>
      act.verdict l.sender.sendTimeout id p.sentAt)) :
    Ledger.holding { l with sender := s' } id =
      (f.next l.sender.sendTimeout id act).holding id := by
  by_cases hf : ∀ sentAt, f ≠ .pending sentAt
  · rw [unsettled_eq_none h hf] at hconcludes
    rw [hnext hf, ← h]
    exact holding_eq hconcludes.1 hconcludes.2 rfl
  · simp only [not_forall, not_not] at hf
    obtain ⟨sentAt, rfl⟩ := hf
    have hsent : (l.sender.unsettled.get? id).map Pending.sentAt = some sentAt :=
      congrArg Holding.sentAt h
    have htaken : l.taken.filter (·.1 = id) = [] := congrArg Holding.taken h
    obtain ⟨p, hp, rfl⟩ := Option.map_eq_some_iff.1 hsent
    rw [hp, Option.bind_some] at hconcludes
    show _ = Fate.holding id (((act.verdict l.sender.sendTimeout id p.sentAt).map .waiting).getD
      (.pending p.sentAt))
    cases hverdict : act.verdict l.sender.sendTimeout id p.sentAt with
    | none =>
      rw [hverdict] at hconcludes
      rw [Option.map_none, Option.getD_none, ← h]
      exact holding_eq hconcludes.1 hconcludes.2 rfl
    | some outcome =>
      rw [hverdict] at hconcludes
      unfold Ledger.holding
      rw [hconcludes.1, hconcludes.2, htaken]
      rfl

theorem holding_book {deliveryId : UInt32} {transfer : Transfer} {now : Nat}
    (h : l.holding id = f.holding id) (hact : deliveryId = id → f = .unsent) :
    (l.act (.book deliveryId transfer now)).holding id =
      (f.next l.sender.sendTimeout id (.book deliveryId transfer now)).holding id := by
  have hbook := unsettled_book deliveryId transfer now l.sender id
  have houtcomes : (l.sender.book deliveryId transfer now).outcomes = l.sender.outcomes := by
    obtain ⟨endpoint, unsettled, hsame⟩ := exists_book deliveryId transfer now l.sender
    rw [hsame]
  by_cases hsent : id = deliveryId ∧ transfer.settled ≠ some true
  · rw [if_pos hsent] at hbook
    rw [hact hsent.1.symm] at h ⊢
    have hnext : Fate.next l.sender.sendTimeout id .unsent (.book deliveryId transfer now) =
        .pending now := if_pos ⟨hsent.1.symm, hsent.2⟩
    have houtcome : l.sender.outcomes.get? id = none := congrArg Holding.outcome h
    have htaken : l.taken.filter (·.1 = id) = [] := congrArg Holding.taken h
    rw [hnext]
    show Holding.mk (((l.sender.book deliveryId transfer now).unsettled.get? id).map _)
      ((l.sender.book deliveryId transfer now).outcomes.get? id) (l.taken.filter (·.1 = id)) = _
    rw [hbook, houtcomes, houtcome, htaken]
    rfl
  · rw [if_neg hsent] at hbook
    have hnext : f.next l.sender.sendTimeout id (.book deliveryId transfer now) = f := by
      cases f with
      | unsent => exact if_neg fun h => hsent ⟨h.1.symm, h.2⟩
      | _ => rfl
    rw [hnext, ← h]
    exact holding_eq hbook (congrArg (·.get? id) houtcomes) rfl

theorem holding_collect {deliveryId : UInt32} (h : l.holding id = f.holding id) :
    (l.act (.collect deliveryId)).holding id =
      (f.next l.sender.sendTimeout id (.collect deliveryId)).holding id := by
  have houtcome : l.sender.outcomes.get? id = (f.holding id).outcome := congrArg Holding.outcome h
  have htaken : l.taken.filter (·.1 = id) = (f.holding id).taken := congrArg Holding.taken h
  have hleft : (l.act (.collect deliveryId)).sender.outcomes.get? id =
      if id = deliveryId then none else l.sender.outcomes.get? id := Table.get?_erase _ _ _
  have hlog : (l.act (.collect deliveryId)).taken.filter (·.1 = id) =
      l.taken.filter (·.1 = id) ++
        if id = deliveryId then (l.sender.outcomes.get? id).toList.map (id, ·) else [] := by
    show (l.taken ++ (l.sender.outcomes.get? deliveryId).toList.map (deliveryId, ·)).filter _ = _
    rw [List.filter_append]
    by_cases hid : id = deliveryId
    · subst hid
      simp
    · simp [hid, Ne.symm hid]
  by_cases hid : id = deliveryId
  · rw [if_pos hid] at hleft hlog
    rw [houtcome, htaken] at hlog
    have hsent : (l.sender.unsettled.get? id).map Pending.sentAt = (f.holding id).sentAt :=
      congrArg Holding.sentAt h
    show Holding.mk ((l.sender.unsettled.get? id).map Pending.sentAt)
      ((l.act (.collect deliveryId)).sender.outcomes.get? id) _ = _
    rw [hsent, hleft, hlog]
    cases f with
    | waiting outcome =>
      have hnext : Fate.next l.sender.sendTimeout id (.waiting outcome) (.collect deliveryId) =
          .taken outcome := if_pos hid.symm
      rw [hnext]
      rfl
    | _ => rfl
  · rw [if_neg hid] at hleft hlog
    rw [List.append_nil] at hlog
    have hnext : f.next l.sender.sendTimeout id (.collect deliveryId) = f := by
      cases f with
      | waiting outcome => exact if_neg (Ne.symm hid)
      | _ => rfl
    rw [hnext, ← h]
    exact holding_eq rfl hleft hlog

/-- An act that neither books nor collects leaves a fate as it is, unless its outcome is not known
yet. -/
theorem next_of_ne_pending {sendTimeout : Option UInt64} {act : Act}
    (hbooked : act.bookedId? = none) (hcollect : ∀ i, act ≠ .collect i)
    (hf : ∀ sentAt, f ≠ .pending sentAt) : f.next sendTimeout id act = f := by
  cases f with
  | pending sentAt => exact absurd rfl (hf sentAt)
  | taken => rfl
  | _ => cases act <;> first | rfl | exact absurd rfl (hcollect _) | cases hbooked

/-- What decides on no outcome leaves what is held as it is. -/
theorem holding_of_same {act : Act} {s' : Sender} (h : l.holding id = f.holding id)
    (hnext : (∀ sentAt, f ≠ .pending sentAt) → f.next l.sender.sendTimeout id act = f)
    (hverdict : ∀ sentAt, act.verdict l.sender.sendTimeout id sentAt = none)
    (hunsettled : s'.unsettled = l.sender.unsettled)
    (houtcomes : s'.outcomes = l.sender.outcomes) :
    Ledger.holding { l with sender := s' } id =
      (f.next l.sender.sendTimeout id act).holding id := by
  refine holding_of_concludes h hnext ?_
  simp only [hverdict, Option.bind_fun_none]
  exact ⟨congrArg (·.get? id) hunsettled, congrArg (·.get? id) houtcomes⟩

/-- An act moves what a ledger holds under a delivery id as it moves the fate, unless it books the
id anew. -/
theorem holding_act (h : l.holding id = f.holding id) {act : Act}
    (hact : act.bookedId? = some id → f = .unsent) :
    (l.act act).holding id = (f.next l.sender.sendTimeout id act).holding id := by
  cases act with
  | draft payload settled =>
    obtain ⟨nextTag, hdraft⟩ := l.exists_act_draft payload settled
    rw [hdraft]
    apply holding_of_same h (next_of_ne_pending rfl fun _ h => by cases h) fun _ => rfl
    · rfl
    · rfl
  | book deliveryId transfer now => exact holding_book h fun hid => hact (congrArg some hid)
  | dispose d =>
    apply holding_of_concludes h (next_of_ne_pending rfl fun _ h => by cases h)
    exact concludes_onDisposition d l.sender id
  | evaluate now =>
    apply holding_of_concludes h (next_of_ne_pending rfl fun _ h => by cases h)
    exact concludes_evaluate now l.sender id
  | collect deliveryId => exact holding_collect h
  | flow v =>
    obtain ⟨endpoint, hflow⟩ := exists_onFlow v l.sender
    show Ledger.holding { l with sender := (l.sender.onFlow v).1 } id = _
    rw [hflow]
    apply holding_of_same h (next_of_ne_pending rfl fun _ h => by cases h) fun _ => rfl
    · rfl
    · rfl
  | alter change =>
    apply holding_of_same h (next_of_ne_pending rfl fun _ h => by cases h) fun _ => rfl
    · rfl
    · rfl

theorem sendTimeout_act (l : Ledger) (act : Act) :
    (l.act act).sender.sendTimeout = l.sender.sendTimeout := by
  cases act with
  | draft payload settled =>
    obtain ⟨nextTag, hdraft⟩ := l.exists_act_draft payload settled
    rw [hdraft]
  | book deliveryId transfer now =>
    obtain ⟨endpoint, unsettled, hbook⟩ := exists_book deliveryId transfer now l.sender
    show (l.sender.book deliveryId transfer now).sendTimeout = _
    rw [hbook]
  | dispose d => exact sendTimeout_onDisposition d l.sender
  | evaluate now => exact sendTimeout_evaluate now l.sender
  | collect deliveryId => rfl
  | flow v =>
    obtain ⟨endpoint, hflow⟩ := exists_onFlow v l.sender
    show (l.sender.onFlow v).1.sendTimeout = _
    rw [hflow]
  | alter change => rfl

end

/-! ## Runs of fates -/

section

variable (sendTimeout : Option UInt64) (id : UInt32)

theorem next_unsent {act : Act}
    (h : ∀ transfer now, act = .book id transfer now → transfer.settled = some true) :
    Fate.next sendTimeout id .unsent act = .unsent := by
  cases act with
  | book deliveryId transfer now =>
    apply if_neg
    rintro ⟨rfl, hunsettled⟩
    exact hunsettled (h transfer now rfl)
  | _ => rfl

theorem foldl_next_unsent {acts : List Act}
    (h : ∀ transfer now, .book id transfer now ∈ acts → transfer.settled = some true) :
    acts.foldl (Fate.next sendTimeout id) .unsent = .unsent := by
  induction acts with
  | nil => rfl
  | cons act acts ih =>
    have hact : Fate.next sendTimeout id .unsent act = .unsent := by
      apply next_unsent
      rintro transfer now rfl
      exact h transfer now List.mem_cons_self
    rw [List.foldl_cons, hact]
    exact ih fun transfer now hmem => h transfer now (List.mem_cons_of_mem act hmem)

theorem foldl_next_taken (outcome : Outcome) (acts : List Act) :
    acts.foldl (Fate.next sendTimeout id) (.taken outcome) = .taken outcome := by
  induction acts with
  | nil => rfl
  | cons act acts ih => exact ih

/-- An outcome that waits is not changed any more. -/
theorem foldl_next_waiting (outcome : Outcome) (acts : List Act) :
    acts.foldl (Fate.next sendTimeout id) (.waiting outcome) = .waiting outcome ∨
      acts.foldl (Fate.next sendTimeout id) (.waiting outcome) = .taken outcome := by
  induction acts with
  | nil => exact Or.inl rfl
  | cons act acts ih =>
    rw [List.foldl_cons]
    cases act with
    | collect deliveryId =>
      by_cases hid : deliveryId = id
      · have hnext : Fate.next sendTimeout id (.waiting outcome) (.collect deliveryId) =
            .taken outcome := if_pos hid
        rw [hnext, foldl_next_taken]
        exact Or.inr rfl
      · have hnext : Fate.next sendTimeout id (.waiting outcome) (.collect deliveryId) =
            .waiting outcome := if_neg hid
        rwa [hnext]
    | _ => exact ih

/-- A delivery is pending until the first act that decides on its outcome. -/
theorem foldl_next_pending (sentAt : Nat) (acts : List Act) :
    match acts.findSome? (Act.verdict sendTimeout id sentAt) with
    | none => acts.foldl (Fate.next sendTimeout id) (.pending sentAt) = .pending sentAt
    | some outcome =>
      acts.foldl (Fate.next sendTimeout id) (.pending sentAt) = .waiting outcome ∨
        acts.foldl (Fate.next sendTimeout id) (.pending sentAt) = .taken outcome := by
  induction acts with
  | nil => rfl
  | cons act acts ih =>
    have hnext : Fate.next sendTimeout id (.pending sentAt) act =
        ((act.verdict sendTimeout id sentAt).map .waiting).getD (.pending sentAt) := rfl
    rw [List.findSome?_cons, List.foldl_cons, hnext]
    cases act.verdict sendTimeout id sentAt with
    | none => exact ih
    | some outcome => exact foldl_next_waiting sendTimeout id outcome acts

end

/-! ## Runs of ledgers -/

theorem mem_booked_iff {acts : List Act} {id : UInt32} :
    id ∈ booked acts ↔ ∃ transfer now, .book id transfer now ∈ acts := by
  unfold booked
  rw [List.mem_filterMap]
  constructor
  · rintro ⟨act, hmem, hid⟩
    cases act with
    | book deliveryId transfer now =>
      cases hid
      exact ⟨transfer, now, hmem⟩
    | _ => cases hid
  · rintro ⟨transfer, now, hmem⟩
    exact ⟨_, hmem, rfl⟩

/-- What is sent unsettled in a run that books no id twice is pending from then on. -/
theorem foldl_next_booked (sendTimeout : Option UInt64) {past later : List Act} {id : UInt32}
    {transfer : Transfer} {now : Nat}
    (h : (booked (past ++ .book id transfer now :: later)).Nodup)
    (hunsettled : transfer.settled ≠ some true) :
    (past ++ .book id transfer now :: later).foldl (Fate.next sendTimeout id) .unsent =
      later.foldl (Fate.next sendTimeout id) (.pending now) := by
  have hpast : id ∉ booked past := by
    unfold booked at h ⊢
    rw [List.filterMap_append, List.nodup_append] at h
    intro hmem
    exact h.2.2 id hmem id List.mem_cons_self rfl
  have hunsent : past.foldl (Fate.next sendTimeout id) .unsent = .unsent := by
    apply foldl_next_unsent
    intro t n hmem
    exact absurd (mem_booked_iff.2 ⟨t, n, hmem⟩) hpast
  have hbook : Fate.next sendTimeout id .unsent (.book id transfer now) = .pending now :=
    if_pos ⟨rfl, hunsettled⟩
  rw [List.foldl_append, hunsent, List.foldl_cons, hbook]

/-- In a run that books no id twice a ledger holds what the fate of each id says. -/
theorem holding_run {acts : List Act} (h : (booked acts).Nodup) {l : Ledger} {id : UInt32}
    {f : Fate} (hl : l.holding id = f.holding id) (hf : id ∈ booked acts → f = .unsent) :
    (l.run acts).holding id =
      (acts.foldl (Fate.next l.sender.sendTimeout id) f).holding id := by
  induction acts generalizing l f with
  | nil => exact hl
  | cons act acts ih =>
    have hact : act.bookedId? = some id → f = .unsent := by
      intro hbooks
      apply hf
      unfold booked
      rw [List.filterMap_cons_some hbooks]
      exact List.mem_cons_self
    have hlater : (booked acts).Nodup ∧ (act.bookedId? = some id → id ∉ booked acts) := by
      unfold booked at h ⊢
      cases hbooks : act.bookedId? with
      | none =>
        rw [List.filterMap_cons_none hbooks] at h
        exact ⟨h, nofun⟩
      | some i =>
        rw [List.filterMap_cons_some hbooks, List.nodup_cons] at h
        refine ⟨h.2, fun hid => ?_⟩
        rw [← Option.some_inj.1 hid]
        exact h.1
    have hnext : id ∈ booked acts → f.next l.sender.sendTimeout id act = .unsent := by
      intro hmem
      have hmem' : id ∈ booked (act :: acts) := by
        obtain ⟨transfer, now, hbook⟩ := mem_booked_iff.1 hmem
        exact mem_booked_iff.2 ⟨transfer, now, List.mem_cons_of_mem act hbook⟩
      rw [hf hmem']
      apply next_unsent
      rintro transfer now rfl
      exact absurd hmem (hlater.2 rfl)
    have hrest := ih hlater.1 (holding_act hl hact) hnext
    rw [sendTimeout_act] at hrest
    exact hrest

namespace Ledger

/-- Whether the outcome of a delivery is not known. -/
def IsPending (l : Ledger) (id : UInt32) : Prop :=
  l.sender.unsettled.contains id = true ∧ l.sender.outcomes.get? id = none ∧
    l.taken.filter (·.1 = id) = []

/-- Whether the outcome of a delivery waits to be taken. -/
def IsWaiting (l : Ledger) (id : UInt32) (outcome : Outcome) : Prop :=
  l.sender.unsettled.contains id = false ∧ l.sender.outcomes.get? id = some outcome ∧
    l.taken.filter (·.1 = id) = []

/-- Whether the outcome of a delivery has been taken, once. -/
def IsTaken (l : Ledger) (id : UInt32) (outcome : Outcome) : Prop :=
  l.sender.unsettled.contains id = false ∧ l.sender.outcomes.get? id = none ∧
    l.taken.filter (·.1 = id) = [(id, outcome)]

/-- Whether nothing is known of a delivery. -/
def IsUnknown (l : Ledger) (id : UInt32) : Prop :=
  l.sender.unsettled.contains id = false ∧ l.sender.outcomes.get? id = none ∧
    l.taken.filter (·.1 = id) = []

end Ledger

/-- Whether a ledger accounts for all deliveries in a run.  One that is sent unsettled is pending,
or has the outcome that was decided on first, which waits or has been taken; one that is sent
settled has none.  No outcome is taken twice, and dispositions only concern the ids in their
range. -/
structure Accounts (sendTimeout : Option UInt64) (acts : List Act) (l : Ledger) : Prop where
  unsettled : ∀ past later id transfer now, acts = past ++ .book id transfer now :: later →
    transfer.settled ≠ some true →
      match later.findSome? (Act.verdict sendTimeout id now) with
      | none => l.IsPending id
      | some outcome => l.IsWaiting id outcome ∨ l.IsTaken id outcome
  settled : ∀ id, (∀ transfer now, .book id transfer now ∈ acts → transfer.settled = some true) →
    l.IsUnknown id
  once : (l.taken.map Prod.fst).Nodup
  range : ∀ (d : Disposition) (id : UInt32),
    (d.covers id = true ↔
      ∃ k, k ≤ (d.last.getD d.first - d.first).toNat ∧ id = d.first + UInt32.ofNat k) ∧
    (d.covers id = false →
      (l.sender.onDisposition d).1.unsettled.get? id = l.sender.unsettled.get? id ∧
        (l.sender.onDisposition d).1.outcomes.get? id = l.sender.outcomes.get? id)

/-- The condition of a delivery in a ledger that its fate tells. -/
def Fate.Shows (l : Ledger) (id : UInt32) : Fate → Prop
  | .unsent => l.IsUnknown id
  | .pending _ => l.IsPending id
  | .waiting outcome => l.IsWaiting id outcome
  | .taken outcome => l.IsTaken id outcome

theorem shows_of_holding {l : Ledger} {id : UInt32} {f : Fate} (h : l.holding id = f.holding id) :
    f.Shows l id := by
  have hsent : l.sender.unsettled.contains id = (f.holding id).sentAt.isSome := by
    rw [Table.contains_eq_isSome, ← h]
    exact Option.isSome_map.symm
  have houtcome : l.sender.outcomes.get? id = (f.holding id).outcome := congrArg Holding.outcome h
  have htaken : l.taken.filter (·.1 = id) = (f.holding id).taken := congrArg Holding.taken h
  cases f <;> exact ⟨hsent, houtcome, htaken⟩

theorem count_taken (l : Ledger) (id : UInt32) :
    (l.taken.map Prod.fst).count id = (l.holding id).taken.length := by
  rw [List.count, List.countP_map, List.countP_eq_length_filter]
  rfl

theorem length_taken_le (f : Fate) (id : UInt32) : (f.holding id).taken.length ≤ 1 := by
  cases f <;> simp [Fate.holding]

/-- In every run of a sending end that books no delivery id twice, each delivery that is sent
unsettled has exactly one outcome. -/
theorem accounts_of_run (endpoint : Endpoint) (sendTimeout : Option UInt64) (acts : List Act)
    (h : (booked acts).Nodup) :
    Accounts sendTimeout acts ((fresh endpoint sendTimeout).run acts) := by
  have hfate (id : UInt32) : ((fresh endpoint sendTimeout).run acts).holding id =
      (acts.foldl (Fate.next sendTimeout id) .unsent).holding id :=
    holding_run h (l := fresh endpoint sendTimeout) rfl fun _ => rfl
  refine ⟨?_, ?_, ?_, fun d id => ⟨d.covers_iff id, onDisposition_of_not_covers _⟩⟩
  · rintro past later id transfer now rfl hunsettled
    have hshows := shows_of_holding (hfate id)
    rw [foldl_next_booked sendTimeout h hunsettled] at hshows
    have hlater := foldl_next_pending sendTimeout id now later
    cases hfirst : later.findSome? (Act.verdict sendTimeout id now) with
    | none =>
      rw [hfirst] at hlater
      rw [hlater] at hshows
      exact hshows
    | some outcome =>
      rw [hfirst] at hlater
      rcases hlater with hwaiting | htaken
      · rw [hwaiting] at hshows
        exact Or.inl hshows
      · rw [htaken] at hshows
        exact Or.inr hshows
  · intro id hsettled
    have hshows := shows_of_holding (hfate id)
    rw [foldl_next_unsent sendTimeout id hsettled] at hshows
    exact hshows
  · rw [List.nodup_iff_count_le_one]
    intro id
    rw [count_taken, hfate]
    exact length_taken_le _ id

/-- An attached sending end. -/
def plainEndpoint : Endpoint :=
  { name := "x", handle := 1, role := .sender, state := .attached, senderSettleMode := .mixed,
    receiverSettleMode := .first }

/-- A disposition of the receiver settles a delivery that is accepted. -/
def settlement (first last : UInt32) : Disposition :=
  { role := .receiver, first, last := some last, settled := true, state := some .accepted }

/-- A disposition settles a delivery and the send timeout gives up another.  A later disposition has
a range that wraps around and covers both, but comes too late. -/
def wrappingActs : List Act :=
  [.book 0xFFFFFFFF { settled := some false } 0, .book 0 { settled := some false } 7,
    .book 1 { settled := some true } 8, .dispose (settlement 0xFFFFFFFE 0xFFFFFFFF),
    .collect 0xFFFFFFFF, .evaluate 20, .collect 0xFFFFFFFF,
    .dispose (settlement 0xFFFFFFFE 2)]

theorem accounts_of_wrappingActs :
    (booked wrappingActs).Nodup ∧
      let l := (fresh plainEndpoint (some 10)).run wrappingActs
      Accounts (some 10) wrappingActs l ∧ l.taken.map Prod.fst = [0xFFFFFFFF] ∧
        l.sender.outcomes.keys = [0] :=
  ⟨by decide +kernel, accounts_of_run _ _ _ (by decide +kernel), by decide +kernel,
    by decide +kernel⟩

end Link.Sender

end Amqp
