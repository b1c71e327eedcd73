import Amqp.Proofs.Link.History
import Mathlib.Data.List.Nodup

/-!
# Settling each delivery once

A receiving end settles a delivery by accepting it when it is whole, or later when its application
says so.  Each step accounts for what it does about a delivery id (`Step.Accounts`), and so a
history pays for all that it sends with deliveries that have ended (`History.Accounted`).  If no two
deliveries have the same id, each one is settled at most once (`History.settlesOnce_run`).
-/

namespace Amqp.Link.Receiver

/-! ## One step -/

theorem hasUnsettled_iff {r : Receiver} {id : UInt32} :
    r.hasUnsettled id = true ↔ id ∈ r.unsettled := List.contains_iff_mem

/-- A message makes an end wait if neither its sender has settled it nor the end accepts it. -/
theorem hasUnsettled_queue (m : Message) (id : UInt32) (r : Receiver) :
    (r.queue m).1.hasUnsettled id = true ↔
      (m.deliveryId = id ∧ m.settled = false ∧ r.autoAccept = false) ∨
        r.hasUnsettled id = true := by
  rw [hasUnsettled_iff, hasUnsettled_iff]
  unfold queue
  split_ifs with hsettled hauto
  · simp [hsettled]
  · simp [hauto]
  · simp only [List.mem_append, List.mem_filter, List.mem_singleton, decide_eq_true_eq, hsettled,
      hauto, and_true, eq_comm (a := id)]
    tauto

/-- The end accepts a message if it does so by itself and the sender has not settled it. -/
theorem countP_queue (m : Message) (id : UInt32) (r : Receiver) :
    (r.queue m).2.countP (·.settles id) =
      if m.deliveryId = id ∧ m.settled = false ∧ r.autoAccept = true then 1 else 0 := by
  unfold queue
  cases m.settled <;> cases r.autoAccept <;>
    simp [List.countP_singleton, settles_settlement, eq_comm (a := id)]

/-- A message pays for its acceptance, or else for the wait that it causes. -/
theorem queue_count_le (m : Message) (id : UInt32) (r : Receiver) :
    (r.queue m).2.countP (·.settles id) + ((r.queue m).1.hasUnsettled id).toNat ≤
      [m.deliveryId].count id + (r.hasUnsettled id).toNat := by
  rw [countP_queue]
  by_cases hwait : m.deliveryId = id ∧ m.settled = false ∧ r.autoAccept = false
  · have hone : [m.deliveryId].count id = 1 := by rw [hwait.1, List.count_singleton_self]
    rw [if_neg (by simp [hwait.2.2]), hone, Nat.zero_add]
    exact (Bool.toNat_le _).trans (Nat.le_add_right _ _)
  · have hsame : (r.queue m).1.hasUnsettled id = r.hasUnsettled id := by
      rw [Bool.eq_iff_iff, hasUnsettled_queue]
      exact or_iff_right hwait
    rw [hsame]
    refine Nat.add_le_add_right ?_ _
    split_ifs with haccept
    · rw [haccept.1, List.count_singleton_self]
    · exact Nat.zero_le _

/-- The application can settle what waits, and nothing else. -/
theorem settle_ok_iff {r : Receiver} {id : UInt32} {state : DeliveryState} :
    (∃ change, r.settle id state = .ok change) ↔ r.hasUnsettled id = true := by
  unfold settle
  split_ifs with hwaits
  · exact iff_of_true ⟨_, rfl⟩ hwaits
  · exact iff_of_false (fun ⟨_, hok⟩ => by cases hok) hwaits

namespace Step

/-- The id of the delivery that begins with a step. -/
def begunId? (s : Step) : Option UInt32 := if s.parts = [] then deliveryId? s.joined else none

/-- The id of the delivery that ends with a transfer of its own. -/
def endedId? (s : Step) : Option UInt32 := if s.nextParts = [] then deliveryId? s.joined else none

/-- Whether a delivery is whole with this step, and none of its transfers says that it is
settled. -/
def CompletesUnsettled (id : UInt32) (s : Step) : Prop :=
  s.Completes ∧ deliveryId? s.joined = some id ∧ ∀ t ∈ s.joined, t.settled ≠ some true

/-- Whether a delivery that waits is settled with this step: by a call of the application that
succeeds, or by a disposition of the sender. -/
def Settles (id : UInt32) (s : Step) : Prop :=
  (∃ state change, s.event = .settle id state ∧ s.receiver.settle id state = .ok change) ∨
    ∃ d, s.event = .onDisposition d ∧ d.role = .sender ∧ d.settled = true ∧ d.covers id = true

/-- Whether a transfer aborts its delivery, or the transfers of the delivery up to this step say
that it is settled. -/
def Exempts (id : UInt32) (s : Step) : Prop :=
  deliveryId? s.joined = some id ∧
    ((∃ t ∈ s.joined.getLast?, t.aborted = true) ∨ ∃ t ∈ s.joined, t.settled = some true)

/-- Whether a step accounts for what becomes of a delivery id.  It waits if it has been completed
unsettled and is not settled; what has been sent to settle it is paid for by its end or because it
has waited. -/
structure Accounts (id : UInt32) (s : Step) : Prop where
  waits : s.next.hasUnsettled id = true ↔
    (s.CompletesUnsettled id ∧ s.receiver.autoAccept = false) ∨
      (s.receiver.hasUnsettled id = true ∧ ¬ s.Settles id)
  count_le : s.outputs.countP (·.settles id) + (s.next.hasUnsettled id).toNat ≤
    s.endedId?.toList.count id + (s.receiver.hasUnsettled id).toNat
  cause : 0 < s.outputs.countP (·.settles id) →
    s.CompletesUnsettled id ∨ s.receiver.hasUnsettled id = true

variable {s : Step} {t : Transfer} {id : UInt32}

theorem countP_of_isMute {outputs : List Output} (h : IsMute outputs) (id : UInt32) :
    outputs.countP (·.settles id) = 0 :=
  List.countP_eq_zero.2 fun o ho => by simp [h o ho id]

theorem accounts_of_same (hpart : ¬ s.CompletesUnsettled id) (hsettles : ¬ s.Settles id)
    (hsame : s.next.hasUnsettled id = s.receiver.hasUnsettled id)
    (hcount : s.outputs.countP (·.settles id) = 0) : s.Accounts id := by
  refine ⟨?_, ?_, fun hpos => absurd hcount hpos.ne'⟩
  · rw [hsame]
    tauto
  · rw [hcount, hsame, Nat.zero_add]
    exact Nat.le_add_left _ _

theorem accounts_of_settles (hpart : ¬ s.CompletesUnsettled id) (hsettles : s.Settles id)
    (hdone : s.next.hasUnsettled id = false)
    (hcount : s.outputs.countP (·.settles id) ≤ (s.receiver.hasUnsettled id).toNat) :
    s.Accounts id := by
  refine ⟨?_, ?_, fun hpos => Or.inr ?_⟩
  · rw [hdone]
    tauto
  · rw [hdone]
    exact hcount.trans (Nat.le_add_left _ _)
  · by_contra hnone
    rw [Bool.eq_false_iff.2 hnone] at hcount
    exact absurd hpos (Nat.not_lt.2 hcount)

theorem accounts_of_spares (hpart : ¬ s.CompletesUnsettled id) (hsettles : ¬ s.Settles id)
    (h : s.receiver.Spares (s.next, s.outputs)) : s.Accounts id :=
  accounts_of_same hpart hsettles (congrArg (List.contains · id) h.unsettled_eq)
    (countP_of_isMute h.isMute id)

theorem not_settles_of_onTransfer (hevent : s.event = .onTransfer t) : ¬ s.Settles id := by
  rintro (⟨state, change, hsettle, -⟩ | ⟨d, hdispose, -⟩)
  · cases hevent.symm.trans hsettle
  · cases hevent.symm.trans hdispose

theorem not_completesUnsettled (h : ∀ t, s.event ≠ .onTransfer t) :
    ¬ s.CompletesUnsettled id := by
  rintro ⟨⟨hcomplete, -⟩, -⟩
  rw [joined_eq_nil h] at hcomplete
  exact absurd hcomplete (by decide)

theorem accounts_of_completes (h : s.receiver.Gathers s.parts) (hevent : s.event = .onTransfer t)
    (hwhole : s.Completes) : s.Accounts id := by
  obtain ⟨m, hm, hparts, -, hunsettled, grants, hmute, houtputs⟩ :=
    next_of_completes h hevent hwhole
  have hended : s.endedId? = some m.deliveryId := by
    rw [endedId?, if_pos hparts, deliveryId?_of_ofParts hm]
  have hunsettles : ¬ s.Settles id := not_settles_of_onTransfer hevent
  have hcompletes : s.CompletesUnsettled id ↔ m.deliveryId = id ∧ m.settled = false := by
    rw [settled_of_ofParts hm]
    unfold CompletesUnsettled
    rw [deliveryId?_of_ofParts hm, Option.some_inj]
    tauto
  have hwaits : s.next.hasUnsettled id = (s.receiver.queue m).1.hasUnsettled id :=
    congrArg (List.contains · id) hunsettled
  have hcount : s.outputs.countP (·.settles id) = (s.receiver.queue m).2.countP (·.settles id) := by
    rw [houtputs, List.countP_append, countP_of_isMute hmute, Nat.add_zero]
  refine ⟨?_, ?_, fun hpos => ?_⟩
  · rw [hwaits, hasUnsettled_queue, hcompletes]
    tauto
  · rw [hcount, hwaits, hended]
    exact queue_count_le m id s.receiver
  · rw [hcount, countP_queue] at hpos
    refine Or.inl (hcompletes.2 ?_)
    by_contra hnone
    rw [if_neg fun h => hnone ⟨h.1, h.2.1⟩] at hpos
    exact Nat.lt_irrefl 0 hpos

theorem accounts_of_settle {id' : UInt32} {state : DeliveryState}
    (hevent : s.event = .settle id' state) : s.Accounts id := by
  have hpart : ¬ s.CompletesUnsettled id :=
    not_completesUnsettled fun t ht => by cases hevent.symm.trans ht
  have hsettles : s.Settles id ↔ id' = id ∧ s.receiver.hasUnsettled id' = true := by
    constructor
    · rintro (⟨state', change, hsettle, hok⟩ | ⟨d, hdispose, -⟩)
      · cases hevent.symm.trans hsettle
        exact ⟨rfl, settle_ok_iff.1 ⟨change, hok⟩⟩
      · cases hevent.symm.trans hdispose
    · rintro ⟨rfl, hwaits⟩
      obtain ⟨change, hok⟩ := settle_ok_iff.2 hwaits
      exact Or.inl ⟨state, change, hevent, hok⟩
  have hchange := perform_settle id' state s.receiver
  rw [← hevent] at hchange
  by_cases hwaits : s.receiver.hasUnsettled id' = true
  · rw [if_pos hwaits] at hchange
    have hnext : s.next.hasUnsettled id = true ↔ s.receiver.hasUnsettled id = true ∧ id ≠ id' := by
      rw [next, hchange, hasUnsettled_iff, hasUnsettled_iff]
      simp
    have hcount : s.outputs.countP (·.settles id) = if id = id' then 1 else 0 := by
      rw [outputs, hchange]
      simp [List.countP_singleton, settles_settlement]
    by_cases hid : id' = id
    · subst hid
      refine accounts_of_settles hpart (hsettles.2 ⟨rfl, hwaits⟩) ?_ ?_
      · exact Bool.eq_false_iff.2 fun h => (hnext.1 h).2 rfl
      · rw [hcount, if_pos rfl, hwaits]
        exact Nat.le_refl 1
    · refine accounts_of_same hpart (fun h => hid (hsettles.1 h).1) ?_ ?_
      · rw [Bool.eq_iff_iff, hnext]
        exact and_iff_left (Ne.symm hid)
      · rw [hcount, if_neg (Ne.symm hid)]
  · rw [if_neg hwaits] at hchange
    refine accounts_of_spares hpart (fun h => hwaits (hsettles.1 h).2) ?_
    rw [next, outputs, hchange]
    exact s.receiver.spares_self

theorem accounts_of_onDisposition {d : Disposition} (hevent : s.event = .onDisposition d) :
    s.Accounts id := by
  have hpart : ¬ s.CompletesUnsettled id :=
    not_completesUnsettled fun t ht => by cases hevent.symm.trans ht
  have hsettles : s.Settles id ↔ (d.role = .sender ∧ d.settled = true) ∧ d.covers id = true := by
    rw [and_assoc]
    constructor
    · rintro (⟨state, change, hsettle, -⟩ | ⟨d', hdispose, h⟩)
      · cases hevent.symm.trans hsettle
      · cases hevent.symm.trans hdispose
        exact h
    · exact fun h => Or.inr ⟨d, hevent, h⟩
  have hchange : s.receiver.perform s.event = (s.receiver.onDisposition d, []) := by
    rw [hevent]
    rfl
  have hnext : s.next.hasUnsettled id = true ↔
      s.receiver.hasUnsettled id = true ∧ ¬ s.Settles id := by
    rw [next, hchange, hasUnsettled_iff, hasUnsettled_iff, hsettles]
    unfold onDisposition
    split_ifs with hsettled
    · simp [hsettled]
    · tauto
  have hcount : s.outputs.countP (·.settles id) = 0 := by
    rw [outputs, hchange]
    rfl
  by_cases h : s.Settles id
  · refine accounts_of_settles hpart h ?_ ?_
    · exact Bool.eq_false_iff.2 fun hwaits => (hnext.1 hwaits).2 h
    · exact hcount.trans_le (Nat.zero_le _)
  · exact accounts_of_same hpart h (Bool.eq_iff_iff.2 (hnext.trans (and_iff_left h))) hcount

/-- Every step accounts for every delivery id. -/
theorem accounts (h : s.receiver.Gathers s.parts) (id : UInt32) : s.Accounts id := by
  by_cases hevent : ∃ t, s.event = .onTransfer t
  · obtain ⟨t, hevent⟩ := hevent
    by_cases hwhole : s.Completes
    · exact accounts_of_completes h hevent hwhole
    · exact accounts_of_spares (fun h => hwhole h.1) (not_settles_of_onTransfer hevent)
        (spares_of_onTransfer h hevent hwhole).2
  by_cases hsettle : ∃ id state, s.event = .settle id state
  · obtain ⟨id', state, hsettle⟩ := hsettle
    exact accounts_of_settle hsettle
  by_cases hdispose : ∃ d, s.event = .onDisposition d
  · obtain ⟨d, hdispose⟩ := hdispose
    exact accounts_of_onDisposition hdispose
  have htransfer (t : Transfer) (ht : s.event = .onTransfer t) : False := hevent ⟨t, ht⟩
  refine accounts_of_spares (not_completesUnsettled htransfer) ?_
    (spares_perform htransfer (fun id state h => hsettle ⟨id, state, h⟩)
      (fun d h => hdispose ⟨d, h⟩) s.receiver)
  rintro (⟨state, change, h, -⟩ | ⟨d, h, -⟩)
  · exact hsettle ⟨id, state, h⟩
  · exact hdispose ⟨d, h⟩

/-! ### Delivery ids -/

/-- A delivery has its id from its first transfer on. -/
theorem deliveryId?_joined (hparts : s.parts ≠ []) (h : s.joined ≠ []) :
    deliveryId? s.joined = deliveryId? s.parts := by
  obtain ⟨t, -, hjoined⟩ := exists_of_joined h
  rw [hjoined, deliveryId?_snoc hparts]

/-- The deliveries that have ended and the one that a transfer joins have begun, in this order. -/
theorem sublist_joined {begun ended : List UInt32}
    (h : (ended ++ (deliveryId? s.parts).toList).Sublist begun) :
    (ended ++ (deliveryId? s.joined).toList).Sublist (begun ++ s.begunId?.toList) := by
  by_cases hparts : s.parts = []
  · rw [begunId?, if_pos hparts]
    exact ((List.sublist_append_left _ _).trans h).append (List.Sublist.refl _)
  rw [begunId?, if_neg hparts, Option.toList_none, List.append_nil]
  by_cases hjoined : s.joined = []
  · rw [hjoined]
    change (ended ++ []).Sublist begun
    rw [List.append_nil]
    exact (List.sublist_append_left _ _).trans h
  · rwa [deliveryId?_joined hparts hjoined]

theorem sublist_next {begun ended : List UInt32}
    (h : (ended ++ (deliveryId? s.parts).toList).Sublist begun) :
    (ended ++ s.endedId?.toList ++ (deliveryId? s.nextParts).toList).Sublist
      (begun ++ s.begunId?.toList) := by
  by_cases hnext : s.nextParts = []
  · rw [endedId?, if_pos hnext, hnext]
    change (_ ++ []).Sublist _
    rw [List.append_nil]
    exact sublist_joined h
  rw [endedId?, if_neg hnext, Option.toList_none, List.append_nil]
  rw [nextParts_of_ne_nil hnext]
  split_ifs
  · exact h.trans (List.sublist_append_left _ _)
  · exact sublist_joined h

/-- A delivery that is whole ends. -/
theorem endedId?_of_completes (h : s.receiver.Gathers s.parts) (hwhole : s.Completes) :
    s.endedId? = deliveryId? s.joined := by
  have hjoined : s.joined ≠ [] := fun hnil =>
    absurd hwhole.1 (by rw [hnil]; decide)
  obtain ⟨t, hevent, -⟩ := exists_of_joined hjoined
  obtain ⟨m, -, hparts, -⟩ := next_of_completes h hevent hwhole
  rw [endedId?, if_pos hparts]

theorem getLast?_joined {u : Transfer} (hu : u ∈ s.joined.getLast?) :
    s.event = .onTransfer u ∧ s.joined = s.parts ++ [u] := by
  have hne : s.joined ≠ [] := fun hnil => by rw [hnil] at hu; cases hu
  obtain ⟨t, hevent, hjoined⟩ := exists_of_joined hne
  rw [hjoined, List.getLast?_concat] at hu
  cases hu
  exact ⟨hevent, hjoined⟩

/-- An exempt delivery that is completed now or goes on has been marked as settled. -/
theorem Exempts.marked (h : s.Exempts id) (hg : s.receiver.Gathers s.parts)
    (hgoes : s.Completes ∨ s.nextParts ≠ []) : ∃ t ∈ s.joined, t.settled = some true := by
  obtain ⟨-, ⟨u, hu, haborted⟩ | hmarked⟩ := h
  · obtain ⟨hevent, hjoined⟩ := getLast?_joined hu
    have hpart := completes_eq_false hjoined (Or.inl haborted)
    rcases hgoes with ⟨hcomplete, -⟩ | hnext
    · exact absurd (hpart.symm.trans hcomplete) Bool.false_ne_true
    · refine absurd ?_ hnext
      cases handles_of_onTransfer hg hevent with
      | passed hnil => exact absurd (hnil.symm.trans hjoined) (by simp)
      | aborted hjoined' haborted' hchange =>
        obtain ⟨credit, hrefill⟩ := s.receiver.opened.refill_eq
        exact if_pos (by rw [next, hchange, hrefill]; rfl)
      | exceeding hjoined' hkept => exact absurd (hkept.symm.trans haborted) Bool.false_ne_true
      | more hjoined' hkept => exact absurd (hkept.symm.trans haborted) Bool.false_ne_true
      | last hjoined' hkept => exact absurd (hkept.symm.trans haborted) Bool.false_ne_true
  · exact hmarked

end Step

/-! ## Histories -/

namespace History

/-- The ids of the deliveries that have begun. -/
def begunIds (h : History) : List UInt32 := h.steps.flatMap (·.begunId?.toList)

/-- The ids of the deliveries that have ended with a transfer. -/
def endedIds (h : History) : List UInt32 := h.steps.flatMap (·.endedId?.toList)

/-- Whether a history accounts for all its deliveries. -/
structure Accounted (h : History) : Prop where
  gathers : h.receiver.Gathers h.parts
  ids : (h.endedIds ++ (deliveryId? h.parts).toList).Sublist h.begunIds
  completed : ∀ id, ∀ s ∈ h.steps, s.CompletesUnsettled id → id ∈ h.endedIds
  waits : ∀ id, h.receiver.hasUnsettled id = true ↔ h.receiver.autoAccept = false ∧
    Since (Step.CompletesUnsettled id) (Step.Settles id) h.steps
  count_le : ∀ id, h.outputs.countP (·.settles id) + (h.receiver.hasUnsettled id).toNat ≤
    h.endedIds.count id
  cause : ∀ id past s later, h.steps = past ++ s :: later →
    0 < s.outputs.countP (·.settles id) → ∃ s' ∈ past ++ [s], s'.CompletesUnsettled id

variable {h : History} {r : Receiver} {id : UInt32} {e : Event}

theorem begunIds_act (h : History) (e : Event) :
    (h.act e).begunIds = h.begunIds ++ (h.step e).begunId?.toList := by
  simp [begunIds, act]

theorem endedIds_act (h : History) (e : Event) :
    (h.act e).endedIds = h.endedIds ++ (h.step e).endedId?.toList := by
  simp [endedIds, act]

theorem accounted_start (hpart : r.inProgress = none) (hwaits : r.unsettled = []) :
    ({ receiver := r } : History).Accounted where
  gathers := gathers_nil hpart
  ids := List.Sublist.refl []
  completed _ _ hs := absurd hs List.not_mem_nil
  waits id := by
    rw [hasUnsettled_iff, hwaits]
    exact iff_of_false List.not_mem_nil fun h => not_since_nil h.2
  count_le id := by
    have hnone : r.hasUnsettled id = false := by rw [hasUnsettled, hwaits]; rfl
    rw [hnone]
    exact Nat.le_refl 0
  cause _ past s later hsteps :=
    absurd hsteps.symm (List.append_ne_nil_of_right_ne_nil past (List.cons_ne_nil s later))

theorem Accounted.act (hh : h.Accounted) (e : Event) : (h.act e).Accounted where
  gathers := Step.gathers_next (s := h.step e) hh.gathers
  ids := by
    rw [begunIds_act, endedIds_act]
    exact Step.sublist_next (s := h.step e) hh.ids
  completed id := by
    rw [endedIds_act]
    refine List.forall_mem_append.2 ⟨fun s hs hwhole => ?_, List.forall_mem_singleton.2 ?_⟩
    · exact List.mem_append_left _ (hh.completed id s hs hwhole)
    · rintro ⟨hwhole, hid, -⟩
      rw [Step.endedId?_of_completes hh.gathers hwhole, hid]
      exact List.mem_append_right _ (List.mem_singleton_self id)
  waits id := by
    have hauto : (h.act e).receiver.autoAccept = h.receiver.autoAccept :=
      congrArg (·.2.1) (terms_perform e h.receiver)
    have hstep := ((h.step e).accounts hh.gathers id).waits
    rw [show (h.step e).receiver = h.receiver from rfl, hh.waits] at hstep
    rw [hauto]
    refine hstep.trans ?_
    unfold History.act
    rw [since_snoc]
    tauto
  count_le id := by
    have hstep := ((h.step e).accounts hh.gathers id).count_le
    have hpast := hh.count_le id
    rw [outputs_act, endedIds_act, List.countP_append, List.count_append]
    change _ + ((h.step e).next.hasUnsettled id).toNat ≤ _
    change _ ≤ _ + (h.receiver.hasUnsettled id).toNat at hstep
    omega
  cause id past s later hsteps hpos := by
    rcases append_cons_eq_snoc hsteps.symm with ⟨rfl, rfl, rfl⟩ | ⟨rest, rfl, hpast⟩
    · rcases ((h.step e).accounts hh.gathers id).cause hpos with hwhole | hwaits
      · exact ⟨_, List.mem_append_right _ (List.mem_singleton_self _), hwhole⟩
      · obtain ⟨s', hs', hwhole⟩ := ((hh.waits id).1 hwaits).2.exists_mem
        exact ⟨s', List.mem_append_left _ hs', hwhole⟩
    · exact hh.cause id past s rest hpast hpos

theorem Accounted.run (hh : h.Accounted) (events : List Event) : (h.run events).Accounted := by
  induction events generalizing h with
  | nil => exact hh
  | cons e events ih => exact ih (hh.act e)

theorem begunIds_sublist_run (h : History) (events : List Event) :
    h.begunIds.Sublist (h.run events).begunIds := by
  induction events generalizing h with
  | nil => exact List.Sublist.refl _
  | cons e events ih =>
    refine List.Sublist.trans ?_ (ih (h.act e))
    rw [begunIds_act]
    exact List.sublist_append_left _ _

/-! ### Exempt deliveries -/

/-- What a history knows of a delivery that is exempt: it has begun, it has not been completed
unsettled, and if it is in progress, one of its transfers says that it is settled. -/
structure Exempted (id : UInt32) (h : History) : Prop where
  begun : id ∈ h.begunIds
  not_completes : ∀ s ∈ h.steps, ¬ s.CompletesUnsettled id
  marked : deliveryId? h.parts = some id → ∃ t ∈ h.parts, t.settled = some true

/-- A delivery that a transfer joins has not ended before. -/
theorem not_mem_endedIds (hh : h.Accounted) (hids : (h.act e).begunIds.Nodup)
    (hid : deliveryId? (h.step e).joined = some id) : id ∉ h.endedIds := by
  have hsub := Step.sublist_joined (s := h.step e) hh.ids
  rw [← begunIds_act, hid] at hsub
  exact fun hmem => (List.nodup_append.1 (hsub.nodup hids)).2.2 id hmem id
    (List.mem_singleton_self id) rfl

/-- A transfer under the id of an exempt delivery goes on with it, for no later one has its id. -/
theorem Exempted.joined (hx : h.Exempted id) (hids : (h.act e).begunIds.Nodup)
    (hid : deliveryId? (h.step e).joined = some id) :
    ∃ t ∈ (h.step e).joined, t.settled = some true := by
  have hne : (h.step e).joined ≠ [] := fun hnil => by rw [hnil] at hid; cases hid
  by_cases hparts : h.parts = []
  · have hbegun : (h.step e).begunId? = some id := (if_pos hparts).trans hid
    rw [begunIds_act, hbegun] at hids
    exact absurd rfl ((List.nodup_append.1 hids).2.2 id hx.begun id (List.mem_singleton_self id))
  · obtain ⟨t, ht, hmarked⟩ := hx.marked ((Step.deliveryId?_joined hparts hne).symm.trans hid)
    obtain ⟨u, -, hjoined⟩ := Step.exists_of_joined hne
    exact ⟨t, by rw [hjoined]; exact List.mem_append_left _ ht, hmarked⟩

/-- A delivery is exempt from some step on.  What that step knows of it, the history keeps. -/
theorem exempted_act (hh : h.Accounted) (hids : (h.act e).begunIds.Nodup)
    (hpast : (∃ s ∈ h.steps, s.Exempts id) → h.Exempted id)
    (hx : ∃ s ∈ (h.act e).steps, s.Exempts id) : (h.act e).Exempted id := by
  -- either an earlier step exempts the delivery, or this one does
  have hnow : ¬ (∃ s ∈ h.steps, s.Exempts id) → (h.step e).Exempts id := by
    obtain ⟨s, hs, hexempts⟩ := hx
    rcases List.mem_append.1 hs with hs | hs
    · exact fun hnone => absurd ⟨s, hs, hexempts⟩ hnone
    · exact fun _ => List.mem_singleton.1 hs ▸ hexempts
  have hmarked (hid : deliveryId? (h.step e).joined = some id)
      (hgoes : (h.step e).Completes ∨ (h.step e).nextParts ≠ []) :
      ∃ t ∈ (h.step e).joined, t.settled = some true := by
    by_cases hp : ∃ s ∈ h.steps, s.Exempts id
    · exact (hpast hp).joined hids hid
    · exact (hnow hp).marked hh.gathers hgoes
  refine ⟨?_, List.forall_mem_append.2 ⟨fun s hs => ?_, List.forall_mem_singleton.2 ?_⟩, ?_⟩
  · rw [begunIds_act]
    by_cases hp : ∃ s ∈ h.steps, s.Exempts id
    · exact List.mem_append_left _ (hpast hp).begun
    · refine (Step.sublist_joined (s := h.step e) hh.ids).subset (List.mem_append_right _ ?_)
      rw [(hnow hp).1]
      exact List.mem_singleton_self id
  · by_cases hp : ∃ s ∈ h.steps, s.Exempts id
    · exact (hpast hp).not_completes s hs
    · exact fun hwhole => not_mem_endedIds hh hids (hnow hp).1 (hh.completed id s hs hwhole)
  · rintro ⟨hwhole, hid, hunsettled⟩
    obtain ⟨t, ht, hsettled⟩ := hmarked hid (Or.inl hwhole)
    exact hunsettled t ht hsettled
  · intro hid
    change deliveryId? (h.step e).nextParts = some id at hid
    change ∃ t ∈ (h.step e).nextParts, _
    have hne : (h.step e).nextParts ≠ [] := fun hnil => by rw [hnil] at hid; cases hid
    rw [Step.nextParts_of_ne_nil hne] at hid ⊢
    split_ifs at hid ⊢ with hjoined
    · by_cases hp : ∃ s ∈ h.steps, s.Exempts id
      · exact (hpast hp).marked hid
      · have hnone := (hnow hp).1
        rw [hjoined] at hnone
        cases hnone
    · exact hmarked hid (Or.inr hne)

theorem exempted_run (events : List Event) (hh : h.Accounted)
    (hids : (h.run events).begunIds.Nodup)
    (hpast : (∃ s ∈ h.steps, s.Exempts id) → h.Exempted id)
    (hx : ∃ s ∈ (h.run events).steps, s.Exempts id) : (h.run events).Exempted id := by
  induction events generalizing h with
  | nil => exact hpast hx
  | cons e events ih =>
    have hpre : (h.act e).begunIds.Nodup := hids.sublist ((h.act e).begunIds_sublist_run events)
    exact ih (hh.act e) hids (exempted_act hh hpre hpast) hx

/-! ### The result -/

/-- Whether a receiving end has settled each delivery at most once, and knows what it still has to
settle. -/
structure SettlesOnce (h : History) : Prop where
  once : ∀ id, h.outputs.countP (·.settles id) ≤ 1
  after_last : ∀ id past s later, h.steps = past ++ s :: later →
    (∃ o ∈ s.outputs, o.settles id = true) → ∃ s' ∈ past ++ [s], s'.CompletesUnsettled id
  exempt : ∀ id, (∃ s ∈ h.steps, s.Exempts id) → ∀ o ∈ h.outputs, o.settles id = false
  waits : ∀ id, h.receiver.hasUnsettled id = true ↔ h.receiver.autoAccept = false ∧
    Since (Step.CompletesUnsettled id) (Step.Settles id) h.steps
  settle_iff : ∀ id state, (∃ change, h.receiver.settle id state = .ok change) ↔
    h.receiver.hasUnsettled id = true
  refused : ∀ id state, (∃ o ∈ h.outputs, o.settles id = true) →
    h.receiver.settle id state =
      .error (.invalidValue (.notUnsettled id h.receiver.endpoint.name)) ∧
    (h.step (.settle id state)).outputs = []

/-- A receiving end settles each delivery at most once if no two deliveries have the same id.  It
does so when the delivery is whole or later, and never if the delivery is aborted or its transfers
say that it is settled. -/
theorem settlesOnce_run {r : Receiver} (hpart : r.inProgress = none) (hwaits : r.unsettled = [])
    (events : List Event)
    (hids : (({ receiver := r } : History).run events).begunIds.Nodup) :
    (({ receiver := r } : History).run events).SettlesOnce := by
  have hstart := accounted_start hpart hwaits
  have hrun := hstart.run events
  have hexempted (id : UInt32) :
      (∃ s ∈ (({ receiver := r } : History).run events).steps, s.Exempts id) →
        (({ receiver := r } : History).run events).Exempted id :=
    exempted_run events hstart hids fun ⟨_, hs, _⟩ => absurd hs List.not_mem_nil
  generalize ({ receiver := r } : History).run events = h at hids hrun hexempted
  -- each disposition and each wait is paid for by the end of a delivery, and no id ends twice
  have hpaid (id : UInt32) :
      h.outputs.countP (·.settles id) + (h.receiver.hasUnsettled id).toNat ≤ 1 :=
    (hrun.count_le id).trans (List.nodup_iff_count_le_one.1
      (((List.sublist_append_left _ _).trans hrun.ids).nodup hids) id)
  refine ⟨fun id => (Nat.le_add_right _ _).trans (hpaid id), ?_, ?_, hrun.waits,
    fun id state => settle_ok_iff, ?_⟩
  · exact fun id past s later hsteps hout =>
      hrun.cause id past s later hsteps (List.countP_pos_iff.2 hout)
  · intro id hx o ho
    by_contra hsettles
    obtain ⟨s, hs, hout⟩ := List.mem_flatMap.1 ho
    obtain ⟨past, later, hsteps⟩ := List.append_of_mem hs
    obtain ⟨s', hs', hwhole⟩ := hrun.cause id past s later hsteps
      (List.countP_pos_iff.2 ⟨o, hout, by simpa using hsettles⟩)
    refine (hexempted id hx).not_completes s' ?_ hwhole
    rw [hsteps, List.append_cons]
    exact List.mem_append_left _ hs'
  · intro id state hout
    have hnone : ¬ h.receiver.hasUnsettled id = true := by
      intro hwaits
      have hpos := List.countP_pos_iff.2 hout
      have hle := hpaid id
      rw [hwaits] at hle
      exact absurd (Nat.add_le_add_right hpos 1) (Nat.not_le.2 (Nat.lt_succ_of_le hle))
    refine ⟨if_neg hnone, ?_⟩
    show (h.receiver.perform (.settle id state)).2 = []
    rw [perform_settle, if_neg hnone]

/-- A delivery in two transfers that is settled twice, an aborted one, one that its sender settles
at once and one that it settles later, by a range of ids that wraps. -/
def fourSettlements : List Event :=
  [.onTransfer { deliveryId := some 5, more := true, payload := [1] },
    .onTransfer { payload := [2] },
    .onTransfer { deliveryId := some 0xffffffff, more := true }, .onTransfer { aborted := true },
    .onTransfer { deliveryId := some 6, settled := some true },
    .onTransfer { deliveryId := some 7 }, .settle 5 .accepted, .settle 5 .accepted,
    .onDisposition { role := .sender, first := 0xffffffff, last := some 7, settled := true },
    .settle 7 .accepted]

theorem settlesOnce_run_fourSettlements :
    (({ receiver := narrowEnd } : History).run fourSettlements).begunIds = [5, 0xffffffff, 6, 7] ∧
    (({ receiver := narrowEnd } : History).run fourSettlements).SettlesOnce ∧
    (({ receiver := narrowEnd } : History).run fourSettlements).outputs.map (·.settles 5) =
      [true] := by
  have hids : (({ receiver := narrowEnd } : History).run fourSettlements).begunIds =
      [5, 0xffffffff, 6, 7] := by decide +kernel
  exact ⟨hids, settlesOnce_run rfl rfl fourSettlements (by rw [hids]; decide), by decide +kernel⟩

end History

end Amqp.Link.Receiver
