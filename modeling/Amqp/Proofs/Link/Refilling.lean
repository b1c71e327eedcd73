import Amqp.Proofs.Link.History

/-!
# Credit of a prefetching end

A prefetching end grants credit anew when it attaches and whenever it has taken a transfer, if none
is left (`Step.Refills`).  It does not so when the flow of the sender uses up the credit
(`Step.UsesUp`): then an attached link has no credit until the next transfer, which the sender may
not send (`linkCredit_eq_zero_iff`).
-/

namespace Amqp.Link

namespace Endpoint

theorem completes_onAttach (v : Attach) (e : Endpoint) :
    (e.onAttach v).2.2 = true ↔ e.state = .detached ∨ e.state = .attachSent := by
  unfold onAttach
  dsimp only
  cases e.state <;> simp

theorem state_onAttach_of_not (v : Attach) {e : Endpoint}
    (h : ¬ (e.state = .detached ∨ e.state = .attachSent)) : (e.onAttach v).1.state = e.state := by
  unfold onAttach
  dsimp only
  split
  · exact absurd (Or.inl ‹_›) h
  · exact absurd (Or.inr ‹_›) h
  · rfl

theorem not_attached_of_detach (close : Bool) (error : Option ErrorInfo) (e : Endpoint) :
    (e.detach close error).1.state ≠ .attached := by
  unfold detach
  split
  · simp [*]
  · simp [*]
  · cases error <;> simp

theorem not_attached_of_onDetach (v : Detach) (e : Endpoint) :
    (e.onDetach v).1.state ≠ .attached := by
  unfold onDetach
  dsimp only
  cases e.state <;> simp

theorem attached_of_followSession {state : Session.State} {e : Endpoint}
    (h : (e.followSession state).1.state = .attached) : e.state = .attached := by
  cases state with
  | mapped =>
    unfold followSession at h
    dsimp only at h
    split_ifs at h
    exact h
  | discarding => cases h
  | unmapped => cases h
  | _ => exact h

end Endpoint

namespace Receiver

variable {r : Receiver} {t : Transfer}

/-! ## Refilling -/

theorem linkCredit_refill (h : r.prefetch ≠ 0) : r.refill.1.endpoint.linkCredit ≠ 0 := by
  unfold refill
  split_ifs with hempty
  · exact h
  · exact fun hzero => hempty ⟨h, hzero⟩

/-- A transfer that an end has taken leaves credit, or closes the link. -/
theorem linkCredit_onTransfer {change : Receiver × List Output} (hprefetch : r.prefetch ≠ 0)
    (hstate : ¬ r.IsDetaching) (hok : r.onTransfer t = .ok change)
    (hattached : change.1.endpoint.state = .attached) : change.1.endpoint.linkCredit ≠ 0 := by
  have htakes := takes_onTransfer t r
  rw [hok] at htakes
  have hopened : r.opened.prefetch ≠ 0 := by
    have hterms := congrArg Prod.fst r.terms_opened
    exact fun hzero => hprefetch (hterms.symm.trans hzero)
  cases htakes with
  | dropped hdetaching => exact absurd hdetaching hstate
  | aborted => exact linkCredit_refill hopened
  | exceeding => exact absurd hattached (Endpoint.not_attached_of_detach _ _ _)
  | more => exact linkCredit_refill hopened
  | last =>
    refine linkCredit_refill fun hzero => hopened ?_
    exact (congrArg Prod.fst (terms_queue _ r.opened)).symm.trans hzero

theorem linkCredit_onAttach (v : Attach) (hprefetch : r.prefetch ≠ 0)
    (hstate : r.endpoint.state = .detached ∨ r.endpoint.state = .attachSent) :
    (r.onAttach v).1.endpoint.linkCredit ≠ 0 := by
  rw [← Endpoint.state_recount v, ← Endpoint.completes_onAttach v] at hstate
  rw [onAttach_eq, if_pos hstate]
  exact linkCredit_refill hprefetch

theorem linkCredit_onAttach_of_not (v : Attach)
    (hstate : ¬ (r.endpoint.state = .detached ∨ r.endpoint.state = .attachSent)) :
    (r.onAttach v).1.endpoint.linkCredit = r.endpoint.linkCredit := by
  rw [← Endpoint.state_recount v, ← Endpoint.completes_onAttach v] at hstate
  rw [onAttach_eq, if_neg hstate]
  exact congrArg Prod.snd (((r.endpoint.recount v).allowance_onAttach v).trans
    (r.endpoint.allowance_recount v))

namespace Step

/-- Whether a flow of the sender uses up all the credit that is left. -/
def UsesUp (s : Step) : Prop :=
  ∃ v count, s.event = .onFlow v ∧ v.deliveryCount = some count ∧
    0 < count - s.receiver.endpoint.deliveryCount ∧
    count - s.receiver.endpoint.deliveryCount < 0x80000000 ∧
    s.receiver.endpoint.linkCredit ≤ count - s.receiver.endpoint.deliveryCount

/-- Whether an end attaches or takes a transfer, and so makes sure that there is credit. -/
def Refills (s : Step) : Prop :=
  (∃ v, s.event = .onAttach v ∧
    (s.receiver.endpoint.state = .detached ∨ s.receiver.endpoint.state = .attachSent)) ∨
  ∃ t change, s.event = .onTransfer t ∧ ¬ s.receiver.IsDetaching ∧
    s.receiver.onTransfer t = .ok change

variable {s : Step}

theorem linkCredit_of_refills (h : s.Refills) (hprefetch : s.receiver.prefetch ≠ 0)
    (hattached : s.next.endpoint.state = .attached) : s.next.endpoint.linkCredit ≠ 0 := by
  unfold next at hattached ⊢
  rcases h with ⟨v, hevent, hstate⟩ | ⟨t, change, hevent, hstate, hok⟩
  · rw [hevent]
    exact linkCredit_onAttach v hprefetch hstate
  · rw [hevent, perform_of_ok hok] at hattached ⊢
    exact linkCredit_onTransfer hprefetch hstate hok hattached

theorem UsesUp.not_refills (h : s.UsesUp) : ¬ s.Refills := by
  obtain ⟨v, count, hevent, -⟩ := h
  rintro (⟨v', hevent', -⟩ | ⟨t, change, hevent', -⟩) <;> cases hevent.symm.trans hevent'

theorem usesUp_onFlow {v : Flow} {parts : List Transfer} :
    ({ receiver := r, parts, event := .onFlow v } : Step).UsesUp ↔
      ∃ count ∈ v.deliveryCount, (0 < count - r.endpoint.deliveryCount ∧
        count - r.endpoint.deliveryCount < 0x80000000) ∧
        r.endpoint.linkCredit ≤ count - r.endpoint.deliveryCount := by
  constructor
  · rintro ⟨v', count, hevent, hcount, hpos, hlt, hle⟩
    cases hevent
    exact ⟨count, hcount, ⟨hpos, hlt⟩, hle⟩
  · rintro ⟨count, hcount, ⟨hpos, hlt⟩, hle⟩
    exact ⟨v, count, rfl, hcount, hpos, hlt, hle⟩

theorem linkCredit_onFlow (v : Flow) (r : Receiver) {parts : List Transfer} :
    (r.onFlow v).1.endpoint.linkCredit = 0 ↔
      ({ receiver := r, parts, event := .onFlow v } : Step).UsesUp ∨ r.endpoint.linkCredit = 0 := by
  rw [usesUp_onFlow]
  unfold onFlow
  cases hcount : v.deliveryCount with
  | none => simp
  | some count =>
    simp only [Option.mem_def, Option.some.injEq, exists_eq_left']
    generalize count - r.endpoint.deliveryCount = advance
    split_ifs with hadvance hle
    · show r.endpoint.linkCredit - advance = 0 ↔ _
      rw [← UInt32.toNat_inj, UInt32.toNat_sub_of_le _ _ hle, UInt32.le_iff_toNat_le]
      rw [UInt32.le_iff_toNat_le] at hle
      have hzero : r.endpoint.linkCredit = 0 ↔ r.endpoint.linkCredit.toNat = 0 :=
        UInt32.toNat_inj.symm
      rw [hzero, UInt32.toNat_zero, and_iff_right hadvance]
      omega
    · have hless : r.endpoint.linkCredit ≤ advance := by
        rw [UInt32.le_iff_toNat_le] at hle ⊢
        omega
      exact iff_of_true rfl (Or.inl ⟨hadvance, hless⟩)
    · exact ⟨Or.inr, fun h => h.resolve_left fun h => hadvance h.1⟩

/-- Without a refill, an attached end has been attached before, and its credit is used up by a flow
or has been before. -/
theorem linkCredit_of_not_refills (h : ¬ s.Refills) (hgrant : ∀ credit, s.event ≠ .grant credit)
    (hattached : s.next.endpoint.state = .attached) :
    s.receiver.endpoint.state = .attached ∧
      (s.next.endpoint.linkCredit = 0 ↔ s.UsesUp ∨ s.receiver.endpoint.linkCredit = 0) := by
  -- only a flow lowers the credit of an end that takes no transfer
  have hother (hstate : s.receiver.endpoint.state = .attached)
      (hsame : s.next.endpoint.linkCredit = s.receiver.endpoint.linkCredit)
      (hflow : ∀ v, s.event ≠ .onFlow v) :
      s.receiver.endpoint.state = .attached ∧
        (s.next.endpoint.linkCredit = 0 ↔ s.UsesUp ∨ s.receiver.endpoint.linkCredit = 0) := by
    refine ⟨hstate, ?_⟩
    rw [hsame, or_iff_right]
    rintro ⟨v, count, hevent, -⟩
    exact hflow v hevent
  have hstays (hsame : s.next.endpoint = s.receiver.endpoint) (hflow : ∀ v, s.event ≠ .onFlow v) :=
    hother (hsame ▸ hattached) (congrArg (·.linkCredit) hsame) hflow
  obtain ⟨r, parts, e⟩ := s
  cases e with
  | session state =>
    exact hother (Endpoint.attached_of_followSession hattached)
      (congrArg Prod.snd (Endpoint.allowance_followSession _ _)) (fun v => nofun)
  | attach =>
    have hstate : ({ r.endpoint with isClosed := false } : Endpoint).state = .attached :=
      Endpoint.attached_of_followSession hattached
    exact hother hstate (congrArg Prod.snd (Endpoint.allowance_followSession _ _))
      (fun v => nofun)
  | detach close error => exact absurd hattached (Endpoint.not_attached_of_detach _ _ _)
  | grant credit => exact absurd rfl (hgrant credit)
  | settle deliveryId state =>
    exact hstays (endpoint_perform_settle deliveryId state r) (fun v => nofun)
  | pop => exact hstays rfl (fun v => nofun)
  | onAttach v =>
    have hkept : ¬ (r.endpoint.state = .detached ∨ r.endpoint.state = .attachSent) := fun hstate =>
      h (Or.inl ⟨v, rfl, hstate⟩)
    have hsame : (r.onAttach v).1.endpoint.state = r.endpoint.state :=
      (state_onAttach v r).trans (Endpoint.state_onAttach_of_not v hkept)
    exact hother (hsame.symm.trans hattached) (linkCredit_onAttach_of_not v hkept)
      (fun v => nofun)
  | onFlow v =>
    obtain ⟨deliveryCount, linkCredit, hflow⟩ := onFlow_eq v r
    have hsame : (r.onFlow v).1.endpoint.state = r.endpoint.state := by rw [hflow]
    exact ⟨hsame.symm.trans hattached, linkCredit_onFlow v r⟩
  | onTransfer t =>
    refine hstays ?_ (fun v => nofun)
    by_cases hstate : r.IsDetaching
    · exact congrArg (·.1.endpoint) (perform_of_ok (onTransfer_of_isDetaching hstate))
    cases hresult : r.onTransfer t with
    | ok change => exact absurd (Or.inr ⟨t, change, rfl, hstate, hresult⟩) h
    | error fault =>
      show ((r.onTransfer t).toOption.getD (r, [])).1.endpoint = _
      rw [hresult]
      rfl
  | onDisposition d => exact hstays (endpoint_onDisposition d r) (fun v => nofun)
  | onDetach v => exact absurd hattached (Endpoint.not_attached_of_onDetach _ _)

end Step

/-! ## Histories -/

namespace History

variable {h : History} {e : Event}

/-- Whether an end has no credit while it is attached just if a flow has used it up since it was
refilled. -/
structure Refilled (h : History) : Prop where
  prefetch_ne : h.receiver.prefetch ≠ 0
  dry_iff : h.receiver.endpoint.state = .attached →
    (h.receiver.endpoint.linkCredit = 0 ↔ Since Step.UsesUp Step.Refills h.steps)

theorem Refilled.act (hh : h.Refilled) (hgrant : ∀ credit, e ≠ .grant credit) :
    (h.act e).Refilled := by
  have hterms := congrArg Prod.fst (terms_perform e h.receiver)
  refine ⟨fun hzero => hh.prefetch_ne (hterms.symm.trans hzero), fun hattached => ?_⟩
  show (h.step e).next.endpoint.linkCredit = 0 ↔ Since _ _ (h.steps ++ [h.step e])
  rw [since_snoc]
  by_cases hrefills : (h.step e).Refills
  · refine iff_of_false (Step.linkCredit_of_refills hrefills hh.prefetch_ne hattached) ?_
    rintro (huses | ⟨-, hkept⟩)
    · exact huses.not_refills hrefills
    · exact hkept hrefills
  · obtain ⟨hbefore, hcredit⟩ := Step.linkCredit_of_not_refills hrefills hgrant hattached
    rw [hcredit, and_iff_left hrefills, ← hh.dry_iff hbefore]
    rfl

theorem Refilled.run (hh : h.Refilled) {events : List Event}
    (hgrant : ∀ e ∈ events, ∀ credit, e ≠ .grant credit) : (h.run events).Refilled := by
  induction events generalizing h with
  | nil => exact hh
  | cons e events ih =>
    obtain ⟨he, hrest⟩ := List.forall_mem_cons.1 hgrant
    exact ih (hh.act he) hrest

/-- An attached end that prefetches, and whose application grants no credit, has no credit left just
if a flow of the sender has used it up since the end attached or took a transfer.  So it always has
some if no flow ever does that. -/
theorem linkCredit_eq_zero_iff {r : Receiver} {events : List Event} (hprefetch : r.prefetch ≠ 0)
    (hstart : r.endpoint.state = .attached → r.endpoint.linkCredit ≠ 0)
    (hgrant : ∀ e ∈ events, ∀ credit, e ≠ .grant credit)
    (hattached : (({ receiver := r } : History).run events).receiver.endpoint.state = .attached) :
    ((({ receiver := r } : History).run events).receiver.endpoint.linkCredit = 0 ↔
      Since Step.UsesUp Step.Refills (({ receiver := r } : History).run events).steps) ∧
    ((∀ s ∈ (({ receiver := r } : History).run events).steps, ¬ s.UsesUp) →
      0 < (({ receiver := r } : History).run events).receiver.endpoint.linkCredit) := by
  have hbegun : ({ receiver := r } : History).Refilled :=
    ⟨hprefetch, fun hstate => iff_of_false (hstart hstate) not_since_nil⟩
  have hdry := (hbegun.run hgrant).dry_iff hattached
  refine ⟨hdry, fun hnone => UInt32.pos_iff_ne_zero.2 fun hzero => ?_⟩
  obtain ⟨s, hs, huses⟩ := (hdry.1 hzero).exists_mem
  exact hnone s hs huses

/-- A detached end that prefetches two messages. -/
def prefetchingEnd : Receiver where
  endpoint :=
    { name := "x", handle := 1, role := .receiver, senderSettleMode := .mixed
      receiverSettleMode := .first }
  prefetch := 2
  autoAccept := true

/-- The link attaches, and a flow tells that the sender has used up both credits. -/
def usedUp : List Event :=
  [.session .mapped,
    .onAttach { name := "x", handle := 0, role := .sender, initialDeliveryCount := some 0 },
    .onFlow { handle := some 0, deliveryCount := some 2 }]

/-- The next transfer brings the credit back. -/
def usedUpAndRefilled : List Event := usedUp ++ [.onTransfer { deliveryId := some 2 }]

theorem linkCredit_of_usedUpAndRefilled :
    ¬ Since Step.UsesUp Step.Refills
      (({ receiver := prefetchingEnd } : History).run usedUpAndRefilled).steps ∧
    (({ receiver := prefetchingEnd } : History).run
      usedUpAndRefilled).receiver.endpoint.linkCredit = 2 := by
  have hgrant : ∀ e ∈ usedUpAndRefilled, ∀ credit, e ≠ .grant credit := by
    simp [usedUpAndRefilled, usedUp]
  have hcredit : (({ receiver := prefetchingEnd } : History).run
      usedUpAndRefilled).receiver.endpoint.linkCredit = 2 := by decide +kernel
  refine ⟨fun hsince => ?_, hcredit⟩
  have hzero := (linkCredit_eq_zero_iff (r := prefetchingEnd) (by decide) (by decide) hgrant
    (by decide +kernel)).1.2 hsince
  exact absurd (hcredit.symm.trans hzero) (by decide)

/-- Until then the attached link has no credit, and the flow is not answered by a grant. -/
theorem dry_of_usedUp :
    prefetchingEnd.prefetch ≠ 0 ∧ (∀ e ∈ usedUp, ∀ credit, e ≠ .grant credit) ∧
    (({ receiver := prefetchingEnd } : History).run usedUp).receiver.endpoint.state = .attached ∧
    (({ receiver := prefetchingEnd } : History).run usedUp).receiver.endpoint.linkCredit = 0 ∧
    (({ receiver := prefetchingEnd } : History).run usedUp).steps.getLast?.map
      (·.outputs.length) = some 0 :=
  ⟨by decide, by simp [usedUp], by decide +kernel, by decide +kernel, by decide +kernel⟩

end History

end Receiver

end Amqp.Link
