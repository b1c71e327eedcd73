import Amqp.Proofs.Link.History

/-!
# The size limit of a receiving end

A receiving end with a size limit never holds more of a delivery than that, in progress or in its
queue (`holdsWithin_run`).  The transfer that would take a delivery over the limit (`Step.Exceeds`)
closes the link with an error, and from then on transfers are dropped (`limited_run`).
-/

namespace Amqp.Link

theorem Endpoint.detach_of_attached {e : Endpoint} {close : Bool} {error : ErrorInfo}
    (h : e.state = .attached) :
    e.detach close (some error) =
      ({ e with isClosed := close, state := .error },
        [.detach { handle := e.handle, closed := close, error := some error }]) := by
  unfold detach
  rw [h]
  rfl

namespace Receiver

variable {r : Receiver} {limit : UInt64}

theorem detach_not_mem_refill (r : Receiver) (v : Detach) : .detach v ∉ r.refill.2 := by
  intro hv
  obtain ⟨e, -, he⟩ := r.refill_spec.2 _ hv
  cases he

theorem detach_not_mem_queue (m : Message) (r : Receiver) (v : Detach) :
    .detach v ∉ (r.queue m).2 := by
  unfold queue settlement
  split_ifs <;> simp

/-- Whether no message in progress or in the queue of an end is over a limit. -/
def HoldsWithin (limit : UInt64) (r : Receiver) : Prop :=
  (∀ m ∈ r.inProgress, m.payload.length ≤ limit.toNat) ∧
    ∀ m ∈ r.received, m.payload.length ≤ limit.toNat

namespace Event

/-- Whether an event ends the detaching of a link: the peer's detach, or the end of the session. -/
def Releases (e : Event) : Prop :=
  (∃ v, e = .onDetach v) ∨ e = .session .discarding ∨ e = .session .unmapped

end Event

namespace Step

/-- The size of a delivery with the transfer of this step. -/
def size (s : Step) : Nat := (s.joined.flatMap (·.payload)).length

/-- Whether a transfer takes its delivery over a limit.  One that aborts it does not. -/
def Exceeds (limit : UInt64) (s : Step) : Prop :=
  (∃ t ∈ s.joined.getLast?, t.aborted = false) ∧ limit.toNat < s.size

/-- Whether a step keeps to a limit and does not detach. -/
def IsUnder (limit : UInt64) (s : Step) : Prop :=
  ¬ s.Exceeds limit ∧ ∀ v, .detach v ∉ s.outputs

/-- Whether nothing is queued or settled in a step, or begins to wait for it. -/
def QueuesNothing (s : Step) : Prop :=
  s.next.received = s.receiver.received ∧ s.receiver.Spares (s.next, s.outputs)

/-- Whether a transfer is dropped: no output, no fault and the same end as before. -/
def IsDropped (s : Step) : Prop :=
  ∃ t, s.event = .onTransfer t ∧ s.receiver.onTransfer t = .ok (s.receiver, [])

variable {s : Step} {t : Transfer}

theorem IsDropped.perform_eq (h : s.IsDropped) :
    s.receiver.perform s.event = (s.receiver, []) := by
  obtain ⟨t, hevent, hdropped⟩ := h
  rw [hevent]
  exact perform_of_ok hdropped

theorem IsDropped.queuesNothing (h : s.IsDropped) : s.QueuesNothing := by
  unfold QueuesNothing next outputs
  rw [h.perform_eq]
  exact ⟨rfl, s.receiver.spares_self⟩

theorem not_exceeds_of_nil (h : s.joined = []) : ¬ s.Exceeds limit := by
  rintro ⟨⟨t, ht, -⟩, -⟩
  rw [h] at ht
  cases ht

theorem not_exceeds_of_aborted (hjoined : s.joined = s.parts ++ [t]) (haborted : t.aborted = true) :
    ¬ s.Exceeds limit := by
  rintro ⟨⟨u, hu, hkept⟩, -⟩
  rw [hjoined, List.getLast?_concat] at hu
  cases hu
  exact Bool.false_ne_true (hkept.symm.trans haborted)

theorem not_exceeds_of_within {m : Message} (hm : Message.ofParts s.joined = some m)
    (hlimit : s.receiver.endpoint.maxMessageSize = some limit) (hpos : 0 < limit)
    (hsize : Within s.receiver.endpoint.maxMessageSize m.payload.length) : ¬ s.Exceeds limit := by
  rw [payload_of_ofParts hm] at hsize
  exact fun hover => Nat.not_le.2 hover.2 (hsize limit hlimit hpos)

/-- The transfer that exceeds the limit closes an attached link. -/
theorem change_of_exceeds (h : s.receiver.Gathers s.parts) (hevent : s.event = .onTransfer t)
    (hstate : s.receiver.endpoint.state = .attached)
    (hlimit : s.receiver.endpoint.maxMessageSize = some limit) (hpos : 0 < limit)
    (hover : s.Exceeds limit) :
    s.next.endpoint.state = .error ∧ s.next.inProgress = none ∧
      s.outputs = [.detach { handle := s.receiver.endpoint.handle, closed := true
                             error := some (sizeExceeded limit) }] := by
  cases handles_of_onTransfer h hevent with
  | passed hjoined => exact absurd hover (not_exceeds_of_nil hjoined)
  | aborted hjoined haborted => exact absurd hover (not_exceeds_of_aborted hjoined haborted)
  | @exceeding limit' hjoined hkept hlimit' hdetaching hchange =>
    obtain rfl : limit = limit' :=
      Option.some_inj.1 (hlimit.symm.trans (Option.eq_some_of_filter_eq_some hlimit'))
    have hopened : s.receiver.opened.endpoint.state = .attached :=
      (steady_opened _).state_eq.trans hstate
    rw [Endpoint.detach_of_attached hopened, handle_opened] at hchange
    rw [next, outputs, hchange]
    exact ⟨rfl, rfl, rfl⟩
  | more hjoined hkept hmore hm hsize =>
    exact absurd hover (not_exceeds_of_within hm hlimit hpos hsize)
  | last hjoined hkept hmore hm hsize =>
    exact absurd hover (not_exceeds_of_within hm hlimit hpos hsize)

/-- Any other transfer leaves the state alone and sends no detach. -/
theorem change_of_not_exceeds (h : s.receiver.Gathers s.parts) (hevent : s.event = .onTransfer t)
    (hlimit : s.receiver.endpoint.maxMessageSize = some limit) (hunder : ¬ s.Exceeds limit) :
    s.next.endpoint.state = s.receiver.endpoint.state ∧ ∀ v, .detach v ∉ s.outputs := by
  have hopened := (s.receiver.steady_opened).state_eq
  unfold next outputs
  cases handles_of_onTransfer h hevent with
  | passed hjoined hchange =>
    rw [hchange]
    exact ⟨rfl, fun _ => List.not_mem_nil⟩
  | aborted hjoined haborted hchange =>
    rw [hchange]
    exact ⟨(steady_refill _).state_eq.trans hopened, detach_not_mem_refill _⟩
  | @exceeding limit' hjoined hkept hlimit' hdetaching hchange =>
    obtain rfl : limit = limit' :=
      Option.some_inj.1 (hlimit.symm.trans (Option.eq_some_of_filter_eq_some hlimit'))
    refine absurd ⟨⟨t, by rw [hjoined, List.getLast?_concat]; rfl, hkept⟩, ?_⟩ hunder
    have hfilter := (Option.filter_eq_some_iff.1 hlimit').2
    rw [Bool.and_eq_true, decide_eq_true_eq, decide_eq_true_eq] at hfilter
    exact hfilter.2
  | more hjoined hkept hmore hm hsize hchange =>
    rw [hchange]
    exact ⟨(steady_refill _).state_eq.trans hopened, detach_not_mem_refill _⟩
  | @last m hjoined hkept hmore hm hsize hchange =>
    rw [hchange]
    refine ⟨(steady_refill _).state_eq.trans ((steady_queue m _).state_eq.trans hopened),
      fun v hv => ?_⟩
    rcases List.mem_append.1 hv with hv | hv
    · exact detach_not_mem_queue m _ v hv
    · exact detach_not_mem_refill _ v hv

/-- What is in progress after a transfer is within the limit. -/
theorem part_le (h : s.receiver.Gathers s.parts) (hevent : s.event = .onTransfer t)
    (hlimit : s.receiver.endpoint.maxMessageSize = some limit) (hpos : 0 < limit)
    (hpart : ∀ m ∈ s.receiver.inProgress, m.payload.length ≤ limit.toNat) :
    ∀ m ∈ s.next.inProgress, m.payload.length ≤ limit.toNat := by
  intro m hm
  rcases inProgress_of_onTransfer h hevent with ⟨-, hsame⟩ | ⟨m', -, hpart', hsize⟩ | hnone
  · rw [hsame] at hm
    exact hpart m hm
  · rw [hpart'] at hm
    cases hm
    exact hsize limit hlimit hpos
  · rw [hnone] at hm
    cases hm

/-- A transfer queues a message within the limit, or nothing. -/
theorem queued_le (h : s.receiver.Gathers s.parts) (hevent : s.event = .onTransfer t)
    (hlimit : s.receiver.endpoint.maxMessageSize = some limit) (hpos : 0 < limit) :
    ∃ new, s.next.received = s.receiver.received ++ new ∧
      ∀ m ∈ new, m.payload.length ≤ limit.toNat := by
  by_cases hwhole : s.Completes
  · obtain ⟨m, hm, -, hreceived, -⟩ := next_of_completes h hevent hwhole
    refine ⟨_, hreceived, List.forall_mem_singleton.2 ?_⟩
    show m.payload.length ≤ _
    rw [payload_of_ofParts hm]
    exact hwhole.2 limit hlimit hpos
  · refine ⟨[], ?_, fun _ hm => absurd hm List.not_mem_nil⟩
    rw [List.append_nil]
    exact (spares_of_onTransfer h hevent hwhole).1

/-- Whatever happens, an end goes on to hold no more than its limit. -/
theorem holdsWithin_next (h : s.receiver.Gathers s.parts)
    (hlimit : s.receiver.endpoint.maxMessageSize = some limit) (hpos : 0 < limit)
    (hholds : s.receiver.HoldsWithin limit) : s.next.HoldsWithin limit := by
  by_cases hevent : ∃ t, s.event = .onTransfer t
  · obtain ⟨t, hevent⟩ := hevent
    obtain ⟨new, hnew, hle⟩ := queued_le h hevent hlimit hpos
    refine ⟨part_le h hevent hlimit hpos hholds.1, ?_⟩
    rw [hnew]
    exact List.forall_mem_append.2 ⟨hholds.2, hle⟩
  · obtain ⟨hpart, hsuffix⟩ := holds_next fun t ht => hevent ⟨t, ht⟩
    refine ⟨fun m hm => ?_, fun m hm => hholds.2 m (hsuffix.subset hm)⟩
    rcases hpart with hsame | hnone
    · exact hholds.1 m (hsame ▸ hm)
    · rw [hnone] at hm
      cases hm

end Step

/-! ## While a link detaches -/

theorem state_followSession_of_detaching {e : Endpoint} {state : Session.State}
    (h : e.state = .detachSent ∨ e.state = .error)
    (hstate : state ≠ .discarding ∧ state ≠ .unmapped) :
    (e.followSession state).1.state = e.state := by
  cases state with
  | mapped =>
    unfold Endpoint.followSession
    dsimp only
    rcases h with h | h <;> rw [if_neg (by simp [h])]
  | discarding => exact absurd rfl hstate.1
  | unmapped => exact absurd rfl hstate.2
  | _ => rfl

/-- A link goes on detaching until the peer answers or the session is over. -/
theorem isDetaching_perform {e : Event} (h : r.IsDetaching) (he : ¬ e.Releases) :
    (r.perform e).1.IsDetaching := by
  have hof {r' : Receiver} (hsame : r'.endpoint.state = r.endpoint.state) : r'.IsDetaching := by
    unfold IsDetaching
    rwa [hsame]
  cases e with
  | session state =>
    refine hof (state_followSession_of_detaching h ⟨?_, ?_⟩)
    · rintro rfl
      exact he (Or.inr (Or.inl rfl))
    · rintro rfl
      exact he (Or.inr (Or.inr rfl))
  | attach => exact hof (state_followSession_of_detaching h (by decide))
  | detach close error =>
    unfold IsDetaching perform Endpoint.detach
    rcases h with h | h
    · simp [h]
    · cases error <;> simp [h]
  | grant credit =>
    refine hof ?_
    rw [perform_grant]
    split_ifs <;> rfl
  | settle deliveryId state =>
    exact hof (congrArg (·.state) (endpoint_perform_settle deliveryId state r))
  | pop => exact h
  | onAttach v =>
    refine hof ((state_onAttach v r).trans ?_)
    unfold Endpoint.onAttach
    rcases h with h | h <;> simp [h]
  | onFlow v =>
    refine hof ?_
    show (r.onFlow v).1.endpoint.state = _
    obtain ⟨deliveryCount, linkCredit, hflow⟩ := onFlow_eq v r
    rw [hflow]
  | onTransfer v =>
    rw [perform_of_ok (onTransfer_of_isDetaching h)]
    exact h
  | onDisposition v => exact hof (congrArg (·.state) (endpoint_onDisposition v r))
  | onDetach v => exact absurd (Or.inl ⟨v, rfl⟩) he

/-! ## Histories -/

namespace History

/-- Whether the transfers of the delivery in progress are the last ones of a history, and none of
them has queued anything. -/
structure Gathered (h : History) : Prop where
  gathers : h.receiver.Gathers h.parts
  steps : ∃ before during, h.steps = before ++ during ∧
    during.map (·.event) = h.parts.map .onTransfer ∧ ∀ s ∈ during, s.QueuesNothing

/-- Where a history stands with a limit.  Either no transfer has exceeded it and the link is still
attached.  Or the first one that did has closed the link: nothing of its delivery is ever queued or
settled, and all transfers after it are dropped. -/
inductive Phase (limit : UInt64) (h : History) : Prop
  | attached (hstate : h.receiver.endpoint.state = .attached)
      (hsteps : ∀ s ∈ h.steps, s.IsUnder limit)
  | closed {before during later : List Step} {s : Step}
      (hsteps : h.steps = before ++ during ++ s :: later)
      (hunder : ∀ s' ∈ before ++ during, s'.IsUnder limit)
      (hexceeds : s.Exceeds limit)
      (hparts : during.map (·.event) = s.parts.map .onTransfer)
      (houtputs : s.outputs = [.detach { handle := s.receiver.endpoint.handle, closed := true
                                         error := some (sizeExceeded limit) }])
      (hqueue : ∀ s' ∈ during ++ s :: later, s'.QueuesNothing)
      (hlater : ∀ s' ∈ later, s'.IsDropped)
      (hstate : h.receiver.endpoint.state = .error)
      (hpart : h.receiver.inProgress = none)

variable {h : History} {t : Transfer}

theorem gathered_start (hpart : r.inProgress = none) : ({ receiver := r } : History).Gathered :=
  ⟨gathers_nil hpart, [], [], rfl, rfl, fun _ hs => absurd hs List.not_mem_nil⟩

/-- A delivery that stays in progress has taken the transfer. -/
theorem Phase.joins (hphase : h.Phase limit) (hh : h.Gathered)
    (hnext : (h.step (.onTransfer t)).nextParts ≠ []) :
    (h.step (.onTransfer t)).joined = h.parts ++ [t] := by
  by_contra hjoined
  have hnil : (h.step (.onTransfer t)).joined = [] := by
    by_contra hne
    obtain ⟨u, hevent, hu⟩ := Step.exists_of_joined hne
    cases hevent
    exact hjoined hu
  have hparts : h.parts ≠ [] := by
    rw [Step.nextParts_of_ne_nil hnext, if_pos hnil] at hnext
    exact hnext
  cases hphase with
  | attached hstate => exact hjoined (if_neg fun h => h.elim (not_isDetaching hstate) (hparts ·.1))
  | closed _ _ _ _ _ _ _ _ hpart =>
    exact hparts (hh.gathers.eq_nil (hh.gathers.inProgress_eq.symm.trans hpart))

theorem Gathered.act (hh : h.Gathered) (hphase : h.Phase limit) :
    (h.act (.onTransfer t)).Gathered := by
  refine ⟨Step.gathers_next (s := h.step _) hh.gathers, ?_⟩
  by_cases hnext : (h.step (.onTransfer t)).nextParts = []
  · refine ⟨_, [], (List.append_nil _).symm, ?_, fun _ hs => absurd hs List.not_mem_nil⟩
    show _ = (h.step _).nextParts.map _
    rw [hnext]
    rfl
  obtain ⟨before, during, hsteps, hevents, hqueue⟩ := hh.steps
  have hjoined := hphase.joins hh hnext
  have hsame := Step.nextParts_of_ne_nil hnext
  rw [hjoined, if_neg (by simp)] at hsame
  refine ⟨before, during ++ [h.step (.onTransfer t)], ?_, ?_,
    List.forall_mem_append.2 ⟨hqueue, List.forall_mem_singleton.2 ?_⟩⟩
  · show h.steps ++ [_] = _
    rw [hsteps, List.append_assoc]
  · show _ = (h.step _).nextParts.map _
    rw [hsame, List.map_append, List.map_append, hevents]
    rfl
  · refine Step.spares_of_onTransfer hh.gathers rfl fun hwhole => hnext ?_
    obtain ⟨m, -, hparts, -⟩ := Step.next_of_completes hh.gathers rfl hwhole
    exact hparts

theorem Phase.act (hphase : h.Phase limit) (hh : h.Gathered)
    (hlimit : h.receiver.endpoint.maxMessageSize = some limit) (hpos : 0 < limit) :
    (h.act (.onTransfer t)).Phase limit := by
  cases hphase with
  | attached hstate hsteps =>
    by_cases hover : (h.step (.onTransfer t)).Exceeds limit
    · -- the last steps are those of the delivery that is now too large
      obtain ⟨before, during, hbefore, hevents, hqueue⟩ := hh.steps
      obtain ⟨herror, hpart, houtputs⟩ :=
        Step.change_of_exceeds (s := h.step _) hh.gathers rfl hstate hlimit hpos hover
      have hnone : (h.step (.onTransfer t)).QueuesNothing := by
        refine Step.spares_of_onTransfer hh.gathers rfl fun hwhole => ?_
        exact Nat.not_le.2 hover.2 (hwhole.2 limit hlimit hpos)
      refine .closed (congrArg (· ++ [h.step (.onTransfer t)]) hbefore) ?_ hover hevents houtputs
        ?_ (fun _ hs => absurd hs List.not_mem_nil) herror hpart
      · rwa [← hbefore]
      · exact List.forall_mem_append.2 ⟨hqueue, List.forall_mem_singleton.2 hnone⟩
    · obtain ⟨hsame, houtputs⟩ :=
        Step.change_of_not_exceeds (s := h.step _) hh.gathers rfl hlimit hover
      exact .attached (hsame.trans hstate)
        (List.forall_mem_append.2 ⟨hsteps, List.forall_mem_singleton.2 ⟨hover, houtputs⟩⟩)
  | @closed before during later s hsteps hunder hexceeds hevents houtputs hqueue hlater hstate
      hpart =>
    have hdropped : (h.step (.onTransfer t)).IsDropped :=
      ⟨t, rfl, onTransfer_of_isDetaching (Or.inr hstate)⟩
    have hsame : (h.act (.onTransfer t)).receiver = h.receiver :=
      congrArg Prod.fst hdropped.perform_eq
    have hsteps' : (h.act (.onTransfer t)).steps =
        before ++ during ++ s :: (later ++ [h.step (.onTransfer t)]) := by
      show h.steps ++ [_] = _
      rw [hsteps, List.append_assoc]
      rfl
    refine .closed hsteps' hunder hexceeds hevents houtputs ?_ ?_ (by rw [hsame]; exact hstate)
      (by rw [hsame]; exact hpart)
    · rw [← List.cons_append, ← List.append_assoc]
      exact List.forall_mem_append.2
        ⟨hqueue, List.forall_mem_singleton.2 hdropped.queuesNothing⟩
    · exact List.forall_mem_append.2 ⟨hlater, List.forall_mem_singleton.2 hdropped⟩

/-- Whether an end keeps to its size limit on transfers that have come since it was `r`. -/
structure Limited (limit : UInt64) (r : Receiver) (h : History) : Prop where
  part : ∀ m ∈ h.receiver.inProgress, m.payload.length ≤ limit.toNat
  queued : ∃ new, h.receiver.received = r.received ++ new ∧
    ∀ m ∈ new, m.payload.length ≤ limit.toNat
  delivered : ∀ s ∈ h.steps, Transfer.completes s.joined = true → s.size ≤ limit.toNat →
    ∃ m later, Message.ofParts s.joined = some m ∧
      h.receiver.received = s.receiver.received ++ m.queuedBy s.receiver.autoAccept :: later
  phase : h.Phase limit

theorem limited_start (hstate : r.endpoint.state = .attached) (hpart : r.inProgress = none) :
    ({ receiver := r } : History).Limited limit r where
  part m hm := by
    change m ∈ r.inProgress at hm
    rw [hpart] at hm
    cases hm
  queued := ⟨[], (List.append_nil _).symm, fun _ hm => absurd hm List.not_mem_nil⟩
  delivered _ hs := absurd hs List.not_mem_nil
  phase := .attached hstate fun _ hs => absurd hs List.not_mem_nil

theorem Limited.act (hl : h.Limited limit r) (hh : h.Gathered)
    (hlimit : h.receiver.endpoint.maxMessageSize = some limit) (hpos : 0 < limit) :
    (h.act (.onTransfer t)).Limited limit r := by
  obtain ⟨more, hmore, hmorele⟩ :=
    Step.queued_le (s := h.step (.onTransfer t)) hh.gathers rfl hlimit hpos
  refine ⟨Step.part_le (s := h.step (.onTransfer t)) hh.gathers rfl hlimit hpos hl.part, ?_,
    List.forall_mem_append.2 ⟨fun s hs hcompletes hsize => ?_, List.forall_mem_singleton.2 ?_⟩,
    hl.phase.act hh hlimit hpos⟩
  · obtain ⟨new, hnew, hle⟩ := hl.queued
    refine ⟨new ++ more, ?_, List.forall_mem_append.2 ⟨hle, hmorele⟩⟩
    exact hmore.trans (by rw [← List.append_assoc, ← hnew]; rfl)
  · obtain ⟨m, later, hm, hreceived⟩ := hl.delivered s hs hcompletes hsize
    refine ⟨m, later ++ more, hm, hmore.trans ?_⟩
    show h.receiver.received ++ more = _
    rw [hreceived, List.append_assoc]
    rfl
  · intro hcompletes hsize
    have hwhole : (h.step (.onTransfer t)).Completes := by
      refine ⟨hcompletes, fun l hl hlpos => ?_⟩
      cases hlimit.symm.trans hl
      exact hsize
    obtain ⟨m, hm, -, hreceived, -⟩ := Step.next_of_completes hh.gathers rfl hwhole
    exact ⟨m, [], hm, hreceived⟩

theorem maxMessageSize_act (h : History) (e : Event) :
    (h.act e).receiver.endpoint.maxMessageSize = h.receiver.endpoint.maxMessageSize :=
  congrArg (·.2.2) (terms_perform e h.receiver)

/-- By induction on the transfers.  What is in progress shows which of them came last. -/
theorem limited_of_gathered (hl : h.Limited limit r) (hh : h.Gathered)
    (hlimit : h.receiver.endpoint.maxMessageSize = some limit) (hpos : 0 < limit)
    (ts : List Transfer) : (h.run (ts.map .onTransfer)).Limited limit r := by
  induction ts generalizing h with
  | nil => exact hl
  | cons t ts ih =>
    exact ih (hl.act hh hlimit hpos) (hh.act hl.phase) ((h.maxMessageSize_act _).trans hlimit)

theorem holdsWithin_of_gathers (hh : h.receiver.Gathers h.parts)
    (hlimit : h.receiver.endpoint.maxMessageSize = some limit) (hpos : 0 < limit)
    (hholds : h.receiver.HoldsWithin limit) (events : List Event) :
    (h.run events).receiver.HoldsWithin limit := by
  induction events generalizing h with
  | nil => exact hholds
  | cons e events ih =>
    exact ih (Step.gathers_next (s := h.step e) hh) ((h.maxMessageSize_act e).trans hlimit)
      (Step.holdsWithin_next (s := h.step e) hh hlimit hpos hholds)

/-- An end that starts empty never holds more than its limit, whatever happens to it. -/
theorem holdsWithin_run (hpart : r.inProgress = none) (hreceived : r.received = [])
    (hlimit : r.endpoint.maxMessageSize = some limit) (hpos : 0 < limit) (events : List Event) :
    (({ receiver := r } : History).run events).receiver.HoldsWithin limit := by
  refine holdsWithin_of_gathers (gathers_nil hpart) hlimit hpos ⟨?_, ?_⟩ events
  · show ∀ m ∈ r.inProgress, _
    rw [hpart]
    exact fun m hm => by cases hm
  · show ∀ m ∈ r.received, _
    rw [hreceived]
    exact fun m hm => absurd hm List.not_mem_nil

theorem isDetaching_run (h : History) {events : List Event} (hstate : h.receiver.IsDetaching)
    (hevents : ∀ e ∈ events, ¬ e.Releases) : (h.run events).receiver.IsDetaching := by
  induction events generalizing h with
  | nil => exact hstate
  | cons e events ih =>
    obtain ⟨he, hrest⟩ := List.forall_mem_cons.1 hevents
    exact ih (h.act e) (isDetaching_perform hstate he) hrest

/-- An attached end keeps to its size limit, whatever transfers arrive, and so does its queue if it
did before.  The first transfer to exceed the limit closes the link, and transfers are then dropped
until the link is released. -/
theorem limited_run (hstate : r.endpoint.state = .attached) (hpart : r.inProgress = none)
    (hlimit : r.endpoint.maxMessageSize = some limit) (hpos : 0 < limit) (ts : List Transfer) :
    (({ receiver := r } : History).run (ts.map .onTransfer)).Limited limit r ∧
      (r.HoldsWithin limit →
        (({ receiver := r } : History).run (ts.map .onTransfer)).receiver.HoldsWithin limit) ∧
      ((∃ s ∈ (({ receiver := r } : History).run (ts.map .onTransfer)).steps, s.Exceeds limit) →
        ∀ events t, (∀ e ∈ events, ¬ e.Releases) →
          (((({ receiver := r } : History).run (ts.map .onTransfer)).run events).step
            (.onTransfer t)).IsDropped) := by
  have hrun := limited_of_gathered (limited_start hstate hpart) (gathered_start hpart) hlimit hpos
    ts
  refine ⟨hrun, fun hholds => holdsWithin_of_gathers (gathers_nil hpart) hlimit hpos hholds _,
    fun ⟨s, hs, hexceeds⟩ events t hevents => ?_⟩
  cases hrun.phase with
  | attached _ hsteps => exact absurd hexceeds (hsteps s hs).1
  | closed _ _ _ _ _ _ _ herror =>
    exact ⟨t, rfl, onTransfer_of_isDetaching (isDetaching_run _ (Or.inr herror) hevents)⟩

/-- A delivery of two octets in two transfers, and one of four octets in three. -/
def upToTwoOctets : List Transfer :=
  [{ deliveryId := some 0, more := true, payload := [1] }, { payload := [2] },
    { deliveryId := some 1, more := true, payload := [3, 3] }, { more := true, payload := [3] },
    { payload := [3] }]

theorem limited_run_upToTwoOctets :
    (({ receiver := narrowEnd } : History).run (upToTwoOctets.map .onTransfer)).Limited 2
      narrowEnd ∧
    (({ receiver := narrowEnd } : History).run (upToTwoOctets.map .onTransfer)).receiver.received =
      [⟨0, none, false, [1, 2]⟩] ∧
    (({ receiver := narrowEnd } : History).run (upToTwoOctets.map .onTransfer)).outputs =
      [.detach { handle := 0, closed := true, error := some (sizeExceeded 2) }] :=
  ⟨(limited_run rfl rfl rfl (by decide) upToTwoOctets).1, rfl, rfl⟩

end History

end Receiver

end Amqp.Link
