import Mathlib.Data.List.Nodup
import Amqp.Proofs.Session.World

/-!
# End-to-end delivery

From sessions whose links are attached to each other (`Joined`), every run keeps both lanes
(`Lanes.run`), and relaying alone empties both outboxes (`Lanes.exists_relays`).  So what is
received on a link is what was sent on it, in order and under the same ids; and an unsettled
delivery to an end that accepts by itself has one outcome (`deliveries_of_run`).
-/

namespace Amqp.Session

/-! ## Records of a run -/

namespace World

variable {α : Type} {g : Peer → α}

theorem apply_set {side : Side} {x : Peer} {w : World} (h : g x = g (w side)) (s : Side) :
    g (w.set side x s) = g (w s) := by
  by_cases hs : s = side
  · rw [hs, set_self, h]
  · rw [set_of_ne hs]

/-- Relaying changes nothing but sessions and outboxes. -/
theorem apply_relay (hg : ∀ s o x, g (Peer.become s o x) = g x) (side : Side) (w : World)
    (s : Side) : g (w.relay side s) = g (w s) := by
  unfold relay
  rcases hhead : (w side).outbox.frames with _ | ⟨⟨channel, p⟩, rest⟩
  · rfl
  · have hframes : g (w.set side ((w side).withFrames rest) s) = g (w s) :=
      apply_set (hg (w side).session _ (w side)) s
    dsimp only
    rcases Frame.relay channel p with f | ⟨channel', p'⟩
    · exact hframes
    · exact (apply_set (hg _ _ _) s).trans hframes

theorem apply_skip (hg : ∀ s o x, g (Peer.become s o x) = g x) (side : Side) (w : World)
    (s : Side) : g (w.skip side s) = g (w s) := by
  have hkept : w.skip side = w ∨ ∃ rest, w.skip side = w.set side ((w side).withFrames rest) := by
    unfold skip
    split
    · exact Or.inr ⟨_, rfl⟩
    · exact Or.inl rfl
  rcases hkept with hkept | ⟨rest, hkept⟩
  · rw [hkept]
  · rw [hkept]
    exact apply_set (hg (w side).session _ (w side)) s

theorem apply_run_relays (hg : ∀ s o x, g (Peer.become s o x) = g x) (relays : List Side)
    (w : World) (s : Side) : g (w.run (relays.map Step.relay) s) = g (w s) := by
  induction relays generalizing w with
  | nil => rfl
  | cons side relays ih => exact (ih (w.relay side)).trans (apply_relay hg side w s)

theorem run_append (w : World) (steps more : List Step) :
    w.run (steps ++ more) = (w.run steps).run more := List.foldl_append

theorem emitted_le_set {side : Side} {x : Peer} {w : World} (h : (w side).emitted ≤ x.emitted)
    (s : Side) : (w s).emitted ≤ (w.set side x s).emitted := by
  by_cases hs : s = side
  · rw [hs, set_self]
    exact h
  · exact Nat.le_of_eq (congrArg Peer.emitted (set_of_ne hs x w).symm)

/-- Transfers that went out stay counted. -/
theorem emitted_le_step (w : World) (st : Step) (s : Side) :
    (w s).emitted ≤ (w.step st s).emitted := by
  have hbecome : ∀ s o x, (Peer.become s o x).emitted = x.emitted := fun _ _ _ => rfl
  cases st with
  | limit side maxFrameSize =>
    refine emitted_le_set ?_ s
    exact Nat.le_refl _
  | send side now name payload settled =>
    refine emitted_le_set ?_ s
    exact Nat.le_add_right _ _
  | grant side name credit =>
    refine emitted_le_set ?_ s
    exact Nat.le_refl _
  | relay side => exact Nat.le_of_eq (apply_relay hbecome side w s).symm
  | skip side => exact Nat.le_of_eq (apply_skip hbecome side w s).symm
  | receive side name =>
    refine emitted_le_set ?_ s
    unfold Peer.receive
    split <;> exact Nat.le_refl _
  | collect side name id =>
    refine emitted_le_set ?_ s
    unfold Peer.collect
    split <;> exact Nat.le_refl _
  | evaluate side now =>
    refine emitted_le_set ?_ s
    exact Nat.le_refl _

theorem emitted_le_run (w : World) (steps : List Step) (s : Side) :
    (w s).emitted ≤ (w.run steps s).emitted := by
  induction steps generalizing w with
  | nil => exact Nat.le_refl _
  | cons st steps ih => exact Nat.le_trans (emitted_le_step w st s) (ih (w.step st))

end World

/-! ## Runs -/

namespace Lanes

variable {base : Side → UInt32} {w : World}

/-- Both lanes are kept by a run with fewer transfers on each side than there are ids. -/
theorem run (h : Lanes base w) {steps : List Step}
    (hcount : ∀ side, (w.run steps side).emitted < UInt32.size) : Lanes base (w.run steps) := by
  induction steps generalizing w with
  | nil => exact h
  | cons st steps ih =>
    have hnow : ∀ side, (w side).emitted < UInt32.size := fun side =>
      Nat.lt_of_le_of_lt (w.emitted_le_run (st :: steps) side) (hcount side)
    exact ih (h.step hnow st) hcount

/-- One side's outbox is emptied by relaying what is in it. -/
theorem drain (h : Lanes base w) (side : Side) :
    ∃ n, Lanes base (w.run (List.replicate n (.relay side))) ∧
      (w.run (List.replicate n (.relay side)) side).outbox.frames = [] ∧
      ∃ replies, (w.run (List.replicate n (.relay side)) side.other).outbox.frames =
          (w side.other).outbox.frames ++ replies ∧
        transfersOf replies = [] ∧ (transfersOf (w side).outbox.frames = [] → replies = []) := by
  generalize hframes : (w side).outbox.frames = frames
  induction frames generalizing w with
  | nil => exact ⟨0, h, hframes, [], (List.append_nil _).symm, rfl, fun _ => rfl⟩
  | cons f rest ih =>
    obtain ⟨hlanes, hown, replies, hreplies, hnone, hquiet⟩ := h.relay side
    rw [hframes] at hown hquiet
    obtain ⟨n, hdrained, hempty, more, hmore, hnone', hquiet'⟩ := ih hlanes hown
    refine ⟨n + 1, hdrained, hempty, replies ++ more, ?_, ?_, fun hf => ?_⟩
    · rw [← List.append_assoc, ← hreplies]
      exact hmore
    · rw [transfersOf_append, hnone, hnone']
      rfl
    · have hrest : transfersOf rest = [] := by
        have hsplit := transfersOf_append [f] rest
        rw [List.singleton_append, hf] at hsplit
        exact (List.append_eq_nil_iff.1 hsplit.symm).2
      rw [hquiet hf, hquiet' hrest]
      rfl

/-- Relaying empties both outboxes: parts of deliveries are answered by other frames only, and those
by none. -/
theorem exists_relays (h : Lanes base w) :
    ∃ relays : List Side, ∀ side, (w.run (relays.map .relay) side).outbox.frames = [] := by
  obtain ⟨k, hk, hleft, -⟩ := h.drain .left
  obtain ⟨m, hm, hright, replies, hreplies, hnone, -⟩ := hk.drain .right
  obtain ⟨n, -, hleft', more, hmore, -, hquiet⟩ := hm.drain .left
  -- The left side has nothing but its replies left, which are answered by nothing.
  have hreplies' := hreplies.trans (congrArg (· ++ replies) hleft)
  have hmore' := hquiet ((congrArg transfersOf hreplies').trans hnone)
  refine ⟨List.replicate k .left ++ List.replicate m .right ++ List.replicate n .left, ?_⟩
  rw [List.map_append, List.map_append, List.map_replicate, List.map_replicate,
    List.map_replicate, World.run_append, World.run_append]
  intro side
  cases side with
  | left => exact hleft'
  | right => exact hmore.trans (by rw [hmore', List.append_nil]; exact hright)

end Lanes

/-! ## Sessions attached to each other -/

/-- Whether the links of two sessions are attached to each other by name, with nothing sent yet.
Sessions that are not mapped and sending ends that are not attached send nothing. -/
structure Joined (sessions : Side → Session) : Prop where
  receiver : ∀ side name v, (sessions side).links.get? name = some (.sender v) →
    ∃ r, (sessions side.other).links.get? name = some (.receiver r) ∧
      IsPair (sessions side).face (sessions side.other).face name v r ∧
      v.unsettled = ∅ ∧ v.outcomes = ∅ ∧ r.inProgress = none ∧ r.received = []
  sender : ∀ side name r, (sessions side.other).links.get? name = some (.receiver r) →
    ∃ v, (sessions side).links.get? name = some (.sender v)

theorem Joined.lanes {sessions : Side → Session} (h : Joined sessions)
    (maxFrameSizes : Side → UInt32) :
    Lanes (fun side => (sessions side).nextOutgoingId) (World.start sessions maxFrameSizes) := by
  intro side
  refine ⟨(UInt32.add_zero _).symm, by simp [World.start], List.nodup_nil, by simp [World.start],
    ?_, ?_⟩
  · intro name r hr
    obtain ⟨r', hr', rfl⟩ := receivers_eq_some_iff.1 hr
    obtain ⟨v, hv⟩ := h.sender side name r' hr'
    exact ⟨v.still, senders_eq_some_iff.2 ⟨v, hv, rfl⟩⟩
  · intro name v hv
    obtain ⟨v', hv', rfl⟩ := senders_eq_some_iff.1 hv
    obtain ⟨r, hr, hpair, hunsettled, houtcomes, hprogress, hreceived⟩ :=
      h.receiver side name v' hv'
    refine ⟨r.still, receivers_eq_some_iff.2 ⟨r, hr, rfl⟩,
      ⟨hpair.state, hpair.sends, hpair.grants, hpair.limit, hpair.sendTimeout⟩, [], ?_⟩
    refine ⟨?_, ?_, ?_, ?_⟩
    · change Link.Assembles _ r.inProgress [] []
      rw [hprogress]
      exact .done
    · change [] = [] ++ r.received.map Link.Message.content ++ []
      rw [hreceived]
      rfl
    · intro id _
      change v'.unsettled.contains id = false ∧ [] ++ (v'.outcomes.get? id).toList = []
      rw [hunsettled, houtcomes]
      exact ⟨rfl, rfl⟩
    · intro _ d hd
      cases hd

/-! ## Deliveries of a run -/

/-- Let the links of two sessions be attached to each other, and let them exchange any messages and
frames, fewer transfers on each side than there are delivery ids.  Then relaying alone empties both
outboxes.  On every link the messages received are, in order, the deliveries sent, with their ids
and payloads, up to those that are on their way; and with an end that accepts by itself, every
unsettled delivery has no outcome as long as it is on its way there and back, and then one, which
tells that it is accepted.  A delivery sent settled has none. -/
theorem deliveries_of_run {sessions : Side → Session} (h : Joined sessions)
    (maxFrameSizes : Side → UInt32) (steps : List Step)
    (hcount : ∀ side, ((World.start sessions maxFrameSizes).run steps side).emitted < UInt32.size) :
    let w := (World.start sessions maxFrameSizes).run steps
    (∃ relays : List Side, ∀ side,
      (w.run (relays.map .relay) side).outbox.frames = [] ∧
        (w.run (relays.map .relay) side).sent = (w side).sent ∧
        (w.run (relays.map .relay) side).emitted = (w side).emitted) ∧
    ∀ side, ((w side).sent.map fun e => e.2.id).Nodup ∧
      ∀ name r, (w side.other).session.links.get? name = some (.receiver r) →
        ∃ v, (w side).session.links.get? name = some (.sender v) ∧
          let sent := recordedAs name (w side).sent
          let arrived := recordedAs name (w side.other).received ++
            r.received.map Link.Message.content
          arrived <+: sent.map Link.Delivery.content ∧
          ((w side).outbox.frames = [] → arrived = sent.map Link.Delivery.content) ∧
          (∀ d ∈ sent, d.settled = true → (w side).outcomesOf name v d.id = []) ∧
          (r.autoAccept = true → ∀ d ∈ sent, d.settled = false →
            ((w side).outcomesOf name v d.id = [] ∨
              (w side).outcomesOf name v d.id = [.settled (some .accepted)]) ∧
            ((w side).outbox.frames = [] → (w side.other).outbox.frames = [] →
              (w side).outcomesOf name v d.id = [.settled (some .accepted)])) := by
  intro w
  have hlanes := (h.lanes maxFrameSizes).run hcount
  refine ⟨?_, fun side => ?_⟩
  · obtain ⟨relays, hempty⟩ := hlanes.exists_relays
    exact ⟨relays, fun side => ⟨hempty side,
      World.apply_run_relays (fun _ _ _ => rfl) relays w side,
      World.apply_run_relays (fun _ _ _ => rfl) relays w side⟩⟩
  have hlane := hlanes side
  refine ⟨hlane.nodup, fun name r hr => ?_⟩
  have hreceiver := receivers_eq_some_iff.2 ⟨r, hr, rfl⟩
  obtain ⟨v', hv'⟩ := hlane.sender name r.still hreceiver
  obtain ⟨v, hv, rfl⟩ := senders_eq_some_iff.1 hv'
  obtain ⟨q, hq, -, coming, hconveys⟩ := hlane.receiver name v.still hv'
  obtain rfl := Option.some.inj (hreceiver.symm.trans hq)
  have hempty : (w side).outbox.frames = [] → coming = [] := by
    intro hframes
    have hassembles := hconveys.assembles
    unfold Peer.transfersOn at hassembles
    rw [hframes] at hassembles
    exact hassembles.of_nil.2
  refine ⟨v, hv, ⟨_, hconveys.content.symm⟩, fun hframes => ?_, fun d hd hsettled => ?_,
    fun hauto d hd hunsettled => ⟨?_, fun hframes hback => ?_⟩⟩
  · have hcontent := hconveys.content
    rw [hempty hframes, List.map_nil, List.append_nil] at hcontent
    exact hcontent.symm
  · -- The delivery is the only one with its id.
    refine (hconveys.quiet d.id fun e he heq => ?_).2
    have hsame := List.inj_on_of_nodup_map hlane.nodup (mem_of_mem_recordedAs he)
      (mem_of_mem_recordedAs hd) heq
    obtain rfl := congrArg Prod.snd hsame
    exact hsettled
  · exact (hconveys.accepts hauto d hd hunsettled).imp (fun hwaits => hwaits.2.1)
      fun hdone => hdone.2
  · rcases hconveys.accepts hauto d hd hunsettled with ⟨-, -, hd | hid⟩ | hdone
    · rw [hempty hframes] at hd
      cases hd
    · rw [hback] at hid
      cases hid
    · exact hdone.2

/-- The sending end of a link "a", with credit. -/
def attachedSender : Link.Sender where
  endpoint :=
    { name := "a", handle := 1, role := .sender, state := .attached, senderSettleMode := .mixed,
      receiverSettleMode := .first, remoteMaxMessageSize := some 80, linkCredit := 5 }

/-- The receiving end of a link "a", which accepts by itself. -/
def attachedReceiver : Link.Receiver where
  endpoint :=
    { name := "a", handle := 4, role := .receiver, state := .attached, senderSettleMode := .mixed,
      receiverSettleMode := .first, maxMessageSize := some 80, linkCredit := 5 }
  prefetch := 0
  autoAccept := true

/-- A mapped session with one link "a", which its peer knows under a handle. -/
def mappedSession (link : Link) (handle : UInt32) : Session where
  name := ""
  channel := 3
  state := .mapped
  nextOutgoingId := 7
  nextIncomingId := some 7
  incomingWindow := 10
  outgoingWindow := 10
  targetIncomingWindow := 10
  remoteIncomingWindow := 10
  remoteOutgoingWindow := 10
  handleMax := 10
  allowPipelinedOpen := false
  linkSettings := {}
  links := ⟨[("a", link)], by simp⟩
  inputHandles := ⟨[(handle, "a")], by simp⟩

/-- Two sessions with one link between them. -/
def attachedPair : Side → Session
  | .left => mappedSession (.sender attachedSender) 4
  | .right => mappedSession (.receiver attachedReceiver) 1

theorem joined_attachedPair : Joined attachedPair := by
  have hlinks : ∀ side name l, (attachedPair side).links.get? name = some l → name = "a" := by
    intro side name l hl
    by_contra hname
    have hnone : (attachedPair side).links.get? name = none := by
      cases side <;> simp [attachedPair, mappedSession, Table.get?, Ne.symm hname]
    rw [hnone] at hl
    cases hl
  constructor
  · intro side name v hv
    obtain rfl := hlinks side name _ hv
    cases side with
    | left =>
      cases hv
      exact ⟨_, rfl, ⟨rfl, rfl, rfl, rfl, rfl⟩, rfl, rfl, rfl, rfl⟩
    | right => cases hv
  · intro side name r hr
    obtain rfl := hlinks side.other name _ hr
    cases side with
    | left => exact ⟨_, rfl⟩
    | right => cases hr

/-- A message in two parts and then a settled one, received and accepted. -/
def twoMessages : List Step :=
  [.send .left 0 "a" (List.replicate 60 1) false, .send .left 0 "a" [2] true, .relay .left,
    .relay .left, .relay .left, .receive .right "a", .relay .right, .receive .right "a",
    .collect .left "a" 7]

theorem deliveries_of_twoMessages :
    let w := (World.start attachedPair fun _ => 64).run twoMessages
    ∃ (v : Link.Sender) (r : Link.Receiver), (w .left).session.links.get? "a" = some (.sender v) ∧
      recordedAs "a" (w .right).received ++ r.received.map Link.Message.content =
        [(7, List.replicate 60 1), (9, [2])] ∧
      (w .left).outcomesOf "a" v 7 = [.settled (some .accepted)] ∧
      (w .left).outcomesOf "a" v 9 = [] := by
  have hrun := (deliveries_of_run joined_attachedPair (fun _ => 64) twoMessages
    fun side => by cases side <;> decide +kernel).2 .left
  -- What the run leads to is evaluated fact by fact.
  generalize hw : (World.start attachedPair fun _ => 64).run twoMessages = w at hrun ⊢
  dsimp only
  have hleft : (w .left).outbox.frames = [] :=
    List.length_eq_zero_iff.1 (by rw [← hw]; decide +kernel)
  have hright : (w .right).outbox.frames = [] :=
    List.length_eq_zero_iff.1 (by rw [← hw]; decide +kernel)
  have hsent : recordedAs "a" (w .left).sent =
      [⟨7, List.replicate 60 1, false⟩, ⟨9, [2], true⟩] := by
    rw [← hw]
    decide +kernel
  have haccepts : (((w .right).session.links.get? "a").bind Link.receiver?).map (·.autoAccept) =
      some true := by
    rw [← hw]
    decide +kernel
  obtain ⟨r, hlink, hauto⟩ := Option.map_eq_some_iff.1 haccepts
  obtain ⟨l, hl, hr⟩ := Option.bind_eq_some_iff.1 hlink
  have hreceiver : (w .right).session.links.get? "a" = some (.receiver r) := by
    cases l with
    | sender _ => cases hr
    | receiver q => exact hl.trans (congrArg (some ∘ Link.receiver) (Option.some.inj hr))
  obtain ⟨v, hv, -, harrived, hsettled, houtcomes⟩ := hrun.2 "a" r hreceiver
  refine ⟨v, r, hv, ?_, ?_, ?_⟩
  · exact (harrived hleft).trans (congrArg _ hsent)
  · exact (houtcomes hauto ⟨7, List.replicate 60 1, false⟩ (by rw [hsent]; simp) rfl).2 hleft hright
  · exact hsettled ⟨9, [2], true⟩ (by rw [hsent]; simp) rfl

end Amqp.Session
